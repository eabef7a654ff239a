import ExprVet.Proofs.Lexing

/-!
# Texts side by side

A text that another one follows is read as on its own unless its last token goes on in the other.
A character that is `Apart` goes on with no token but a string literal that nothing has closed yet,
and only such a literal takes in whatever stands behind it.
-/

namespace ExprVet.Calc

open Text

/-- The contents of a string literal that goes on with what follows: no quote closes it, and no
newline stands behind a backslash. -/
inductive Unclosed : List Char → Prop
  | nil : Unclosed []
  | backslash : Unclosed ['\\']
  | escape {c : Char} {cs : List Char} (hc : c ≠ '\n') (h : Unclosed cs) :
      Unclosed ('\\' :: c :: cs)
  | plain {c : Char} {cs : List Char} (hquote : c ≠ '"') (hescape : c ≠ '\\') (h : Unclosed cs) :
      Unclosed (c :: cs)

theorem not_unclosed_quote (cs : List Char) : ¬ Unclosed ('"' :: cs) := by
  intro h
  cases h with
  | plain hquote _ _ => exact hquote rfl

theorem unclosed_escape_iff {c : Char} {cs : List Char} :
    Unclosed ('\\' :: c :: cs) ↔ c ≠ '\n' ∧ Unclosed cs := by
  constructor
  · intro h
    cases h with
    | escape hc h => exact ⟨hc, h⟩
    | plain _ hescape _ => exact absurd rfl hescape
  · rintro ⟨hc, h⟩
    exact .escape hc h

theorem unclosed_plain_iff {c : Char} {cs : List Char} (hquote : c ≠ '"') (hescape : c ≠ '\\') :
    Unclosed (c :: cs) ↔ Unclosed cs := by
  constructor
  · intro h
    cases h with
    | backslash | escape _ _ => exact absurd rfl hescape
    | plain _ _ h => exact h
  · exact .plain hquote hescape

/-- The extent ends before the last of some characters, its closing quote included. -/
def StringEnd.Within (limit : Nat) : StringEnd → Prop
  | closed contents => contents < limit
  | unclosed length => length < limit

theorem StringEnd.Within.add {limit : Nat} {extent : StringEnd} (h : extent.Within limit)
    (n : Nat) : (extent.add n).Within (limit + n) := by
  cases extent with
  | closed contents => exact Nat.add_lt_add_right h n
  | unclosed length => exact Nat.add_lt_add_right h n

/-- A string literal goes on with what follows, or it is as long before any text as before none. -/
theorem stringEnd_cases (cs : List Char) :
    (Unclosed cs ∧ stringEnd cs = .unclosed cs.length) ∨
    (¬ Unclosed cs ∧ (stringEnd cs).Within cs.length ∧
      ∀ rest, stringEnd (cs ++ rest) = stringEnd cs) := by
  induction cs using stringInduction with
  | nil => exact .inl ⟨.nil, rfl⟩
  | quote cs => exact .inr ⟨not_unclosed_quote cs, Nat.succ_pos cs.length, fun _ => rfl⟩
  | escape c cs ih =>
      by_cases hc : c = '\n'
      · subst hc
        refine .inr ⟨fun h => (unclosed_escape_iff.mp h).1 rfl, ?_, fun _ => rfl⟩
        exact Nat.lt_add_of_pos_left (Nat.succ_pos cs.length)
      · rw [unclosed_escape_iff, stringEnd_escape_of_ne hc]
        rcases ih with ⟨hopen, heq⟩ | ⟨hclosed, hwithin, happend⟩
        · exact .inl ⟨⟨hc, hopen⟩, by rw [heq]; rfl⟩
        · refine .inr ⟨fun h => hclosed h.2, hwithin.add 2, fun rest => ?_⟩
          rw [List.cons_append, List.cons_append, stringEnd_escape_of_ne hc, happend]
  | backslash => exact .inl ⟨.backslash, rfl⟩
  | plain c cs hquote hbackslash ih =>
      rw [unclosed_plain_iff hquote hbackslash, stringEnd_cons hquote hbackslash]
      rcases ih with ⟨hopen, heq⟩ | ⟨hclosed, hwithin, happend⟩
      · exact .inl ⟨hopen, by rw [heq]; rfl⟩
      · refine .inr ⟨hclosed, hwithin.add 1, fun rest => ?_⟩
        rw [List.cons_append, stringEnd_cons hquote hbackslash, happend]

theorem unclosed_iff {cs : List Char} : Unclosed cs ↔ stringEnd cs = .unclosed cs.length := by
  rcases stringEnd_cases cs with ⟨hopen, heq⟩ | ⟨hclosed, hwithin, -⟩
  · exact iff_of_true hopen heq
  · refine iff_of_false hclosed fun heq => ?_
    rw [heq] at hwithin
    exact Nat.lt_irrefl _ hwithin

instance (cs : List Char) : Decidable (Unclosed cs) := decidable_of_iff _ unclosed_iff.symm

theorem Unclosed.append_brace {cs : List Char} (h : Unclosed cs) : Unclosed (cs ++ ['\x7d']) := by
  induction h with
  | nil => exact .plain (by decide) (by decide) .nil
  | backslash => exact .escape (by decide) .nil
  | escape hc _ ih => exact .escape hc ih
  | plain hquote hescape _ ih => exact .plain hquote hescape ih

/-- A character that begins a new token whatever stands in front of it, string literals apart. -/
def Apart (c : Char) : Prop := isNameChar c = false ∧ c ∉ ['.', '|', '>', '=', '&']

instance (c : Char) : Decidable (Apart c) := inferInstanceAs (Decidable (_ ∧ _))

theorem Apart.isDigit {c : Char} (h : Apart c) : isDigit c = false :=
  (Bool.or_eq_false_iff.mp h.1).2

section Append

variable {rest : List Char}

theorem stringToken_unclosed {cs : List Char} (h : Unclosed cs) :
    stringToken cs = (.error, cs.length) := by
  rw [stringToken, unclosed_iff.mp h]

theorem stringToken_append {cs : List Char} (h : ¬ Unclosed cs) (rest : List Char) :
    stringToken (cs ++ rest) = stringToken cs ∧ (stringToken cs).2 ≤ cs.length := by
  rcases stringEnd_cases cs with ⟨hopen, -⟩ | ⟨-, hwithin, happend⟩
  · exact absurd hopen h
  · rw [stringToken, stringToken, happend]
    cases hend : stringEnd cs with
    | closed contents =>
        have hle : contents < cs.length := by rwa [hend] at hwithin
        have htake : (cs ++ rest).take contents = cs.take contents :=
          List.take_append_of_le_length hle.le
        simp only [htake, true_and]
        exact hle
    | unclosed length =>
        rw [hend] at hwithin
        exact ⟨rfl, Nat.le_of_lt hwithin⟩

theorem numberToken_append (hrest : ∀ d ∈ rest.head?, Apart d) (c : Char) (cs : List Char) :
    numberToken c (cs ++ rest) = numberToken c cs ∧ (numberToken c cs).2 ≤ cs.length := by
  have hstop : ∀ d ∈ rest.head?, isDigit d = false := fun d hd => (hrest d hd).isDigit
  have hle : (cs.takeWhile isDigit).length ≤ cs.length :=
    (List.takeWhile_prefix isDigit).length_le
  have hdrop : (cs ++ rest).drop (cs.takeWhile isDigit).length =
      cs.drop (cs.takeWhile isDigit).length ++ rest := List.drop_append_of_le_length hle
  have hlength : (cs.drop (cs.takeWhile isDigit).length).length =
      cs.length - (cs.takeWhile isDigit).length := List.length_drop
  simp only [numberToken, takeWhile_append_of_stop cs hstop, hdrop]
  generalize cs.drop (cs.takeWhile isDigit).length = more at hlength ⊢
  cases more with
  | nil =>
      cases rest with
      | nil => exact ⟨rfl, hle⟩
      | cons d ds =>
          have hpoint : d ≠ '.' := by
            rintro rfl
            exact (hrest '.' rfl).2 (by simp)
          refine ⟨?_, hle⟩
          simp [hpoint]
  | cons d ds =>
      by_cases hpoint : d = '.'
      · subst hpoint
        have hfraction : (ds.takeWhile isDigit).length ≤ ds.length :=
          (List.takeWhile_prefix isDigit).length_le
        simp only [List.cons_append, takeWhile_append_of_stop ds hstop, true_and]
        rw [List.length_cons] at hlength
        split
        · exact hle
        · simp only
          omega
      · refine ⟨?_, ?_⟩
        · simp [hpoint]
        · simpa [hpoint] using hle

theorem orLonger_snd_le (next : Char) (long short : Token) (cs : List Char) :
    (orLonger next long short cs).2 ≤ cs.length := by
  rcases orLonger_cases next long short cs with h | ⟨h, hle⟩
  · rw [h]
    exact Nat.zero_le _
  · rw [h]
    exact hle

theorem orLonger_append {next : Char} (h : ∀ d ∈ rest.head?, d ≠ next) (long short : Token)
    (cs : List Char) : orLonger next long short (cs ++ rest) = orLonger next long short cs := by
  cases cs with
  | cons c cs => rfl
  | nil =>
      cases rest with
      | nil => rfl
      | cons d rest =>
          have hd : d ≠ next := h d rfl
          rw [List.nil_append, orLonger, if_neg hd]
          rfl

/-- What follows a text leaves its first token alone, unless that is a string literal that goes on
with it. -/
theorem firstToken_append {c : Char} {cs : List Char} (hrest : ∀ d ∈ rest.head?, Apart d)
    (hclosed : ¬ (c = '"' ∧ Unclosed cs)) :
    firstToken c (cs ++ rest) = firstToken c cs ∧ (firstToken c cs).2 ≤ cs.length := by
  by_cases hstart : isNameStart c = true
  · have hstop : ∀ d ∈ rest.head?, isNameChar d = false := fun d hd => (hrest d hd).1
    rw [firstToken_word hstart, firstToken_word hstart, takeWhile_append_of_stop cs hstop]
    exact ⟨rfl, (List.takeWhile_prefix isNameChar).length_le⟩
  · have hnext (next : Char) (hmem : next ∈ ['.', '|', '>', '=', '&']) :
        ∀ d ∈ rest.head?, d ≠ next := by
      rintro d hd rfl
      exact (hrest d hd).2 hmem
    unfold firstToken
    rw [if_neg hstart, if_neg hstart]
    split
    · exact numberToken_append hrest c cs
    · split
      · exact stringToken_append (fun h => hclosed ⟨rfl, h⟩) rest
      all_goals first
        | exact ⟨orLonger_append (hnext _ (by decide)) _ _ cs, orLonger_snd_le _ _ _ cs⟩
        | exact ⟨rfl, Nat.zero_le _⟩

end Append

/-- An error token that is a string literal which nothing closes. -/
def Lexeme.Unterminated (lexeme : Lexeme) : Prop :=
  lexeme.token = .error ∧ ∃ contents, lexeme.text = '"' :: contents ∧ Unclosed contents

/-- The last token of a text is an unterminated string literal that reaches the end of the text. -/
def EndsUnterminated (offset : Nat) (cs : List Char) : Prop :=
  ∃ last ∈ (lexemes offset cs).getLast?,
    last.Unterminated ∧ last.span.stop = offset + byteLength cs

theorem endsUnterminated_separator {c : Char} (hc : isSeparator c = true) (offset : Nat)
    (cs : List Char) :
    EndsUnterminated offset (c :: cs) ↔ EndsUnterminated (offset + c.utf8Size) cs := by
  rw [EndsUnterminated, EndsUnterminated, lexemes_separator hc, byteLength_cons, Nat.add_assoc]

theorem byteLength_cons_take_add_drop (c : Char) (n : Nat) (cs : List Char) :
    byteLength (c :: cs.take n) + byteLength (cs.drop n) = byteLength (c :: cs) := by
  rw [← byteLength_append, List.cons_append, List.take_append_drop]

/-- The literal is the first token, or it stands behind it. -/
theorem endsUnterminated_token {c : Char} {cs : List Char} {token : Token} {more : Nat}
    (hc : isSeparator c = false) (htoken : firstToken c cs = (token, more)) (offset : Nat) :
    EndsUnterminated offset (c :: cs) ↔
      (c = '"' ∧ Unclosed cs) ∨
        EndsUnterminated (offset + byteLength (c :: cs.take more)) (cs.drop more) := by
  rw [EndsUnterminated, EndsUnterminated, lexemes_token hc htoken, List.getLast?_cons,
    ← byteLength_cons_take_add_drop c more cs, ← Nat.add_assoc]
  constructor
  · rintro ⟨last, hlast, hunterminated, hstop⟩
    cases htail : (lexemes (offset + byteLength (c :: cs.take more)) (cs.drop more)).getLast? with
    | some found =>
        rw [htail] at hlast
        cases hlast
        exact .inr ⟨_, rfl, hunterminated, hstop⟩
    | none =>
        rw [htail] at hlast
        cases hlast
        obtain ⟨-, contents, htext, hopen⟩ := hunterminated
        obtain ⟨rfl, rfl⟩ := List.cons.inj htext
        have hrest : (cs.drop more).length = 0 := by
          have hle := length_le_byteLength (cs.drop more)
          have hbytes : byteLength (cs.drop more) = 0 := Nat.left_eq_add.mp hstop
          omega
        rw [List.take_of_length_le (by rw [List.length_drop] at hrest; omega)] at hopen
        exact .inl ⟨rfl, hopen⟩
  · rintro (⟨rfl, hopen⟩ | ⟨last, hlast, hunterminated, hstop⟩)
    · have hstring : firstToken '"' cs = stringToken cs := rfl
      rw [hstring, stringToken_unclosed hopen] at htoken
      cases htoken
      rw [List.drop_length, lexemes_nil, List.take_length]
      exact ⟨_, rfl, ⟨rfl, cs, rfl, hopen⟩, rfl⟩
    · rw [hlast]
      exact ⟨last, rfl, hunterminated, hstop⟩

theorem endsUnterminated_add (offset more : Nat) (cs : List Char) :
    EndsUnterminated (more + offset) cs ↔ EndsUnterminated offset cs := by
  rw [EndsUnterminated, EndsUnterminated, lexemes_add, List.getLast?_map]
  constructor
  · rintro ⟨_, hlast, hunterminated, hstop⟩
    obtain ⟨last, hfound, rfl⟩ := Option.map_eq_some_iff.mp hlast
    exact ⟨last, hfound, hunterminated, Nat.add_left_cancel (hstop.trans (Nat.add_assoc ..))⟩
  · rintro ⟨last, hlast, hunterminated, hstop⟩
    refine ⟨last.shift more, Option.mem_map_of_mem _ hlast, hunterminated, ?_⟩
    rw [Nat.add_assoc, ← hstop]
    rfl

/-- Without quotes there are no string literals. -/
theorem not_endsUnterminated_of_no_quote {cs : List Char} (h : '"' ∉ cs) (offset : Nat) :
    ¬ EndsUnterminated offset cs := by
  rintro ⟨last, hlast, ⟨-, contents, htext, -⟩, -⟩
  obtain ⟨span, ⟨before, after, rfl, -⟩, -⟩ := selects_of_mem_lexemes (List.mem_of_getLast? hlast)
  rw [htext] at h
  simp at h

/-- A text is read as on its own, and what follows it as on its own, unless a string literal at the
end of the text goes on. -/
theorem lexemes_append {offset : Nat} {cs rest : List Char} (hrest : ∀ d ∈ rest.head?, Apart d)
    (h : ¬ EndsUnterminated offset cs) :
    lexemes offset (cs ++ rest) =
      lexemes offset cs ++ lexemes (offset + byteLength cs) rest := by
  induction offset, cs using lexemes.induct with
  | case1 offset => rw [lexemes_nil]; rfl
  | case2 offset c cs hc ih =>
      rw [endsUnterminated_separator hc] at h
      rw [List.cons_append, lexemes_separator hc, lexemes_separator hc, byteLength_cons,
        ← Nat.add_assoc, ih h]
  | case3 offset c cs hc token length htoken text stop ih =>
      have hsep : isSeparator c = false := Bool.eq_false_iff.mpr hc
      rw [endsUnterminated_token hsep htoken, not_or] at h
      obtain ⟨heq, hle⟩ := firstToken_append hrest h.1
      rw [htoken] at heq hle
      have hbytes : offset + byteLength (c :: cs) = stop + byteLength (cs.drop length) := by
        rw [← byteLength_cons_take_add_drop c length cs, ← Nat.add_assoc]
      rw [List.cons_append, lexemes_token hsep htoken, lexemes_token hsep heq,
        List.take_append_of_le_length hle, List.drop_append_of_le_length hle, ih h.2, hbytes]
      rfl

theorem isSeparator_brace : isSeparator '\x7d' = false := by
  decide

theorem apart_brace : ∀ d ∈ ['\x7d'].head?, Apart d := by
  rintro _ ⟨⟩
  exact ⟨rfl, by decide⟩

/-- The closing brace at a byte of the source. -/
def closingBrace (start : Nat) : Lexeme := ⟨.rbrace, ['\x7d'], ⟨start, start + 1⟩⟩

theorem lexemes_closingBrace (offset : Nat) : lexemes offset ['\x7d'] = [closingBrace offset] := by
  rw [lexemes_token isSeparator_brace rfl, List.drop_nil, lexemes_nil]
  rfl

/-- A token that takes in a closing brace behind it. -/
def Lexeme.withBrace (lexeme : Lexeme) : Lexeme :=
  ⟨lexeme.token, lexeme.text ++ ['\x7d'], ⟨lexeme.span.start, lexeme.span.stop + 1⟩⟩

/-- A brace behind an unterminated string literal is taken into it. -/
theorem lexemes_append_brace_of_unterminated {offset : Nat} {cs : List Char}
    (h : EndsUnterminated offset cs) :
    ∃ before last, lexemes offset cs = before ++ [last] ∧ last.Unterminated ∧
      last.span.stop = offset + byteLength cs ∧
      lexemes offset (cs ++ ['\x7d']) = before ++ [last.withBrace] := by
  induction offset, cs using lexemes.induct with
  | case1 offset =>
      obtain ⟨last, hlast, -⟩ := h
      rw [lexemes_nil] at hlast
      cases hlast
  | case2 offset c cs hc ih =>
      rw [endsUnterminated_separator hc] at h
      rw [List.cons_append, lexemes_separator hc, lexemes_separator hc, byteLength_cons,
        ← Nat.add_assoc]
      exact ih h
  | case3 offset c cs hc token length htoken text stop ih =>
      have hsep : isSeparator c = false := Bool.eq_false_iff.mpr hc
      by_cases hopen : c = '"' ∧ Unclosed cs
      · obtain ⟨rfl, hopen⟩ := hopen
        have htoken (rest : List Char) (h : Unclosed rest) :
            firstToken '"' rest = (.error, rest.length) := stringToken_unclosed h
        rw [List.cons_append, lexemes_token hsep (htoken _ hopen),
          lexemes_token hsep (htoken _ hopen.append_brace), List.take_length, List.take_length,
          List.drop_length, List.drop_length, lexemes_nil, lexemes_nil]
        refine ⟨[], _, rfl, ⟨rfl, cs, rfl, hopen⟩, rfl, ?_⟩
        have hbrace : Char.utf8Size '\x7d' = 1 := rfl
        simp only [Lexeme.withBrace, List.nil_append, List.cons_append, byteLength_cons,
          byteLength_append, byteLength_nil, hbrace, Nat.add_assoc, Nat.add_zero]
      · obtain ⟨heq, hle⟩ := firstToken_append apart_brace hopen
        rw [htoken] at heq hle
        have hbytes : offset + byteLength (c :: cs) = stop + byteLength (cs.drop length) := by
          rw [← byteLength_cons_take_add_drop c length cs, ← Nat.add_assoc]
        obtain ⟨before, last, hlast, hunterminated, hstop, hbrace⟩ :=
          ih (((endsUnterminated_token hsep htoken offset).mp h).resolve_left hopen)
        rw [List.cons_append, lexemes_token hsep htoken, lexemes_token hsep heq,
          List.take_append_of_le_length hle, List.drop_append_of_le_length hle, hlast, hbrace,
          hbytes]
        exact ⟨_ :: before, last, rfl, hunterminated, hstop, rfl⟩

/-- A brace behind a text is the last token, or the last token of the text is an error token that
takes the brace in. -/
theorem lexemes_append_brace (offset : Nat) (cs : List Char) :
    lexemes offset (cs ++ ['\x7d']) =
        lexemes offset cs ++ [closingBrace (offset + byteLength cs)] ∨
      ∃ before last longer, lexemes offset cs = before ++ [last] ∧
        lexemes offset (cs ++ ['\x7d']) = before ++ [longer] ∧
        last.token = .error ∧ longer.token = .error ∧ longer.text = last.text ++ ['\x7d'] ∧
        longer.span.start = last.span.start ∧ last.span.stop = offset + byteLength cs ∧
        longer.span.stop = last.span.stop + 1 := by
  by_cases h : EndsUnterminated offset cs
  · obtain ⟨before, last, hlast, hunterminated, hstop, hbrace⟩ :=
      lexemes_append_brace_of_unterminated h
    exact .inr ⟨before, last, last.withBrace, hlast, hbrace, hunterminated.1, hunterminated.1, rfl,
      rfl, hstop, rfl⟩
  · left
    rw [lexemes_append apart_brace h, lexemes_closingBrace]

end ExprVet.Calc
