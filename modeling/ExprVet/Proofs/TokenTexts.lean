import ExprVet.Proofs.Boundaries
import ExprVet.Proofs.StringLiterals

/-!
# Token texts

A text is the texts of its tokens with blanks between them. The text of a token is as much as its
reading looked at, so a token without error is read from its own text alone as it was in its place.
-/

namespace ExprVet.Calc

open Text

/-- A number is its digits, or these with a fraction. -/
theorem numberToken_cases (c : Char) (cs : List Char) :
    numberToken c cs =
        (if digitsValue (c :: cs.takeWhile isDigit) ≤ maxInt
          then .int (digitsValue (c :: cs.takeWhile isDigit)) else .error,
        (cs.takeWhile isDigit).length) ∨
      ∃ fraction, fraction ≠ [] ∧ fraction.all isDigit = true ∧
        cs.takeWhile isDigit ++ '.' :: fraction <+: cs ∧
        numberToken c cs = (.float ⟨c :: cs.takeWhile isDigit, fraction⟩,
          (cs.takeWhile isDigit ++ '.' :: fraction).length) := by
  have hcs := List.take_append_drop (cs.takeWhile isDigit).length cs
  rw [take_length_takeWhile] at hcs
  simp only [numberToken]
  generalize cs.drop (cs.takeWhile isDigit).length = more at hcs ⊢
  split
  · rename_i rest
    split
    · exact .inl rfl
    · rename_i hfraction
      rw [List.isEmpty_iff] at hfraction
      refine .inr ⟨rest.takeWhile isDigit, hfraction, List.all_takeWhile,
        ⟨rest.dropWhile isDigit, ?_⟩, ?_⟩
      · rw [List.append_assoc, List.cons_append, List.takeWhile_append_dropWhile, hcs]
      · rw [List.length_append, List.length_cons]
        congr 1
        omega
  · exact .inl rfl

/-- The token of a text is read from the part that belongs to it. -/
theorem numberToken_take {c : Char} {cs : List Char} {token : Token} {more : Nat}
    (h : numberToken c cs = (token, more)) (htoken : token ≠ .error) :
    numberToken c (cs.take more) = (token, more) := by
  have hstops : Stops [] := fun d hd => nomatch hd
  have hdigits : (cs.takeWhile isDigit).all isDigit = true := List.all_takeWhile
  rcases numberToken_cases c cs with hint | ⟨fraction, hne, hfraction, hprefix, hfloat⟩
  · rw [hint] at h
    obtain ⟨rfl, rfl⟩ := Prod.mk.inj h
    rw [take_length_takeWhile]
    by_cases hvalue : digitsValue (c :: cs.takeWhile isDigit) ≤ maxInt
    · have hown := numberToken_int hdigits hvalue hstops
      rw [List.append_nil] at hown
      rw [hown, if_pos hvalue]
    · exact absurd (if_neg hvalue) htoken
  · rw [hfloat] at h
    obtain ⟨rfl, rfl⟩ := Prod.mk.inj h
    have hown := numberToken_float (c := c) hdigits hne hfraction hstops
    rw [List.append_nil] at hown
    rw [← List.prefix_iff_eq_take.mp hprefix, hown]

theorem stringToken_take {cs : List Char} {token : Token} {more : Nat}
    (h : stringToken cs = (token, more)) (htoken : token ≠ .error) :
    stringToken (cs.take more) = (token, more) := by
  rcases stringEnd_contents cs with ⟨contents, hcontents, hescapes, hend⟩ | ⟨-, -, hend⟩ |
    ⟨-, length, hend, -⟩
  · rw [stringToken, hend] at h
    obtain ⟨htoken', rfl⟩ := Prod.mk.inj h
    obtain ⟨hcontentsTake, htake⟩ := take_of_contents? hcontents
    obtain ⟨-, hrest⟩ := exists_after_of_contents? hcontents
    rw [hcontentsTake] at htoken'
    have hown : stringEnd (contents ++ ['"']) = .closed contents.length := by
      rcases stringEnd_contents (contents ++ ['"']) with ⟨own, hsome, -, hown⟩ | ⟨hnone, -⟩ |
        ⟨hnewline, -⟩
      · rw [hrest] at hsome
        cases hsome
        exact hown
      · rw [hrest] at hnone
        cases hnone
      · rw [hrest] at hnewline
        exact absurd hnewline hescapes
    rw [htake, stringToken, hown]
    simp only [List.take_left, htoken']
  · rw [stringToken, hend] at h
    exact absurd (Prod.mk.inj h).1.symm htoken
  · rw [stringToken, hend] at h
    exact absurd (Prod.mk.inj h).1.symm htoken

theorem orLonger_take {next : Char} {long short : Token} {cs : List Char} {token : Token}
    {more : Nat} (h : orLonger next long short cs = (token, more)) :
    orLonger next long short (cs.take more) = (token, more) := by
  cases cs with
  | nil =>
      cases h
      rfl
  | cons c cs =>
      rw [orLonger] at h
      split at h
      · rename_i hnext
        cases h
        exact if_pos hnext
      · cases h
        rfl

theorem firstToken_take {c : Char} {cs : List Char} {token : Token} {more : Nat}
    (h : firstToken c cs = (token, more)) (htoken : token ≠ .error) :
    firstToken c (cs.take more) = (token, more) := by
  by_cases hstart : isNameStart c = true
  · rw [firstToken_word hstart] at h
    obtain ⟨rfl, rfl⟩ := Prod.mk.inj h
    have hword : (cs.takeWhile isNameChar).takeWhile isNameChar = cs.takeWhile isNameChar :=
      List.takeWhile_eq_self_iff.mpr fun d hd => List.mem_takeWhile_imp hd
    rw [take_length_takeWhile, firstToken_word hstart, hword]
  by_cases hdigit : isDigit c = true
  · rw [firstToken_digit hdigit] at h ⊢
    exact numberToken_take h htoken
  · unfold firstToken at h ⊢
    rw [if_neg hstart, if_neg hdigit] at h ⊢
    split at h
    · exact stringToken_take h htoken
    all_goals first
      | exact orLonger_take h
      | exact h

/-- A token is the first one of the text from its place on. -/
theorem exists_firstToken_of_mem_lexemes {offset : Nat} {cs : List Char} {lexeme : Lexeme}
    (h : lexeme ∈ lexemes offset cs) :
    ∃ before c behind more, cs = before ++ c :: behind ∧
      lexeme.span.start = offset + byteLength before ∧ isSeparator c = false ∧
      firstToken c behind = (lexeme.token, more) ∧ lexeme.text = c :: behind.take more := by
  induction offset, cs using lexemes.induct with
  | case1 offset =>
      rw [lexemes_nil] at h
      cases h
  | case2 offset c cs hc ih =>
      rw [lexemes_separator hc] at h
      obtain ⟨before, d, behind, more, rfl, hstart, hread⟩ := ih h
      refine ⟨c :: before, d, behind, more, rfl, ?_, hread⟩
      rw [hstart, byteLength_cons, Nat.add_assoc]
  | case3 offset c cs hc token length htoken text stop ih =>
      have hsep : isSeparator c = false := Bool.eq_false_iff.mpr hc
      rw [lexemes_token hsep htoken] at h
      rcases List.mem_cons.mp h with rfl | h
      · exact ⟨[], c, cs, length, rfl, rfl, hsep, htoken, rfl⟩
      · obtain ⟨before, d, behind, more, hcs, hstart, hread⟩ := ih h
        refine ⟨text ++ before, d, behind, more, ?_, ?_, hread⟩
        · rw [List.append_assoc, ← hcs, List.cons_append, List.take_append_drop]
        · rw [hstart, byteLength_append, ← Nat.add_assoc]

/-- The text of a token, read on its own, is that token. -/
theorem tokenize_text_of_mem_lexemes {offset : Nat} {cs : List Char} {lexeme : Lexeme}
    (h : lexeme ∈ lexemes offset cs) (htoken : lexeme.token ≠ .error) :
    tokenize (String.ofList lexeme.text) =
      [⟨lexeme.token, lexeme.text, ⟨0, byteLength lexeme.text⟩⟩] := by
  obtain ⟨-, c, behind, more, -, -, hsep, hfirst, htext⟩ := exists_firstToken_of_mem_lexemes h
  have hown := lexemes_token hsep (firstToken_take hfirst htoken) 0
  rw [List.take_take, Nat.min_self, List.drop_take, Nat.sub_self, List.take_zero, lexemes_nil,
    Nat.zero_add, ← htext] at hown
  rw [tokenize, String.toList_ofList, hown]

/-- The character at a place is part of the token. -/
def Lexeme.Covers (lexeme : Lexeme) (place : Nat) : Prop :=
  lexeme.span.start ≤ place ∧ place < lexeme.span.stop

/-- What no token covers is a blank. -/
theorem isSeparator_of_not_covered (offset : Nat) (cs : List Char) {c : Char} {after : List Char} :
    ∀ before, cs = before ++ c :: after →
      (∀ lexeme ∈ lexemes offset cs, ¬lexeme.Covers (offset + byteLength before)) →
      isSeparator c = true := by
  induction offset, cs using lexemes.induct with
  | case1 offset =>
      intro before hcs
      simp at hcs
  | case2 offset d cs hd ih =>
      intro before hcs h
      rw [lexemes_separator hd] at h
      cases before with
      | nil =>
          obtain ⟨rfl, -⟩ := List.cons.inj hcs
          exact hd
      | cons e before =>
          obtain ⟨rfl, hrest⟩ := List.cons.inj hcs
          apply ih before hrest
          rwa [byteLength_cons, ← Nat.add_assoc] at h
  | case3 offset d cs hd token length htoken text stop ih =>
      intro before hcs h
      rw [lexemes_token (Bool.eq_false_iff.mpr hd) htoken, List.forall_mem_cons] at h
      obtain ⟨hfirst, hrest⟩ := h
      have houtside : byteLength text ≤ byteLength before := by
        apply Nat.not_lt.mp
        intro hlt
        exact hfirst ⟨Nat.le_add_right _ _, Nat.add_lt_add_left hlt offset⟩
      rw [← List.take_append_drop length cs, ← List.cons_append] at hcs
      rcases List.append_eq_append_iff.mp hcs with ⟨between, rfl, hdrop⟩ | ⟨tail, htext, htail⟩
      · apply ih between hdrop
        rwa [byteLength_append, ← Nat.add_assoc] at hrest
      · -- no part of the token is left behind the place
        obtain rfl : tail = [] := by
          have hbytes : byteLength text = byteLength before + byteLength tail := by
            rw [← byteLength_append, ← htext]
          exact eq_nil_of_byteLength_le (by omega)
        rw [List.append_nil] at htext
        subst htext
        exact ih [] htail.symm hrest

/-- Every span of a token lies between characters of the source and is not empty, tokens follow one
another without overlap, and around them there are only blanks. What a token without error was read
from is read, on its own, as that token. -/
theorem tokens_lose_nothing (source : String) :
    (∀ lexeme ∈ tokenize source, lexeme.span.start < lexeme.span.stop ∧
      lexeme.span.Inside source ∧ lexeme.span.Selects source.toList lexeme.text) ∧
    (tokenize source).Pairwise (fun first second => first.span.stop ≤ second.span.start) ∧
    (∀ before c after, source.toList = before ++ c :: after →
      (∀ lexeme ∈ tokenize source, ¬lexeme.Covers (byteLength before)) →
      c ∈ [' ', '\t', '\r', '\n', '\x0c']) ∧
    ∀ lexeme ∈ tokenize source, lexeme.token ≠ .error →
      tokenize (String.ofList lexeme.text) =
        [⟨lexeme.token, lexeme.text, ⟨0, lexeme.span.length⟩⟩] := by
  have hselects : ∀ lexeme ∈ tokenize source,
      lexeme.span.Selects source.toList lexeme.text := by
    intro lexeme hmem
    obtain ⟨span, hspan, heq⟩ := selects_of_mem_lexemes hmem
    rw [heq]
    simpa [Span.shift] using hspan
  refine ⟨?_, pairwise_lexemes 0 source.toList, ?_, ?_⟩
  · intro lexeme hmem
    have hlt := start_lt_stop_of_mem_lexemes hmem
    have hbounded := bounded_of_mem_tokenize hmem
    refine ⟨hlt, ⟨hlt.le, ?_, hbounded.start.isValid, hbounded.stop.isValid⟩, hselects lexeme hmem⟩
    rw [← byteLength_toList]
    exact hbounded.stop.le_byteLength
  · intro before c after hsource hnone
    have hblank : isSeparator c = true := by
      apply isSeparator_of_not_covered 0 source.toList before hsource
      rwa [Nat.zero_add]
    simp only [isSeparator, Bool.or_eq_true, beq_iff_eq] at hblank
    simp only [List.mem_cons, List.not_mem_nil, or_false]
    rcases hblank with (((h | h) | h) | h) | h <;> simp [h]
  · intro lexeme hmem htoken
    obtain ⟨before, after, -, hspan⟩ := hselects lexeme hmem
    have hlength : lexeme.span.length = byteLength lexeme.text := by
      rw [hspan]
      exact Nat.add_sub_cancel_left ..
    rw [hlength]
    exact tokenize_text_of_mem_lexemes hmem htoken

end ExprVet.Calc
