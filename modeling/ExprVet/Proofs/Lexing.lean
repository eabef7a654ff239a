import ExprVet.Calc.Lexer
import Mathlib.Data.List.TakeWhile

/-!
# What the lexer reads

Each step of the lexer takes a blank or a token from the front of the text. So every token has its
place in the text, tokens move along with the text, and a name is read back as the name it is.
-/

namespace ExprVet

open Text

/-- The part of a text that a span selects. -/
def Span.Selects (span : Span) (text part : List Char) : Prop :=
  ∃ before after, text = before ++ (part ++ after) ∧
    span = ⟨byteLength before, byteLength before + byteLength part⟩

namespace Calc

/-- The same token in a text that has `offset` more bytes in front. -/
def Lexeme.shift (offset : Nat) (lexeme : Lexeme) : Lexeme :=
  { lexeme with span := lexeme.span.shift offset }

theorem lexemes_nil (offset : Nat) : lexemes offset [] = [] := by
  rw [lexemes]

theorem lexemes_separator {c : Char} (h : isSeparator c = true) (offset : Nat) (cs : List Char) :
    lexemes offset (c :: cs) = lexemes (offset + c.utf8Size) cs := by
  rw [lexemes, if_pos h]

theorem lexemes_token {c : Char} {cs : List Char} {token : Token} {more : Nat}
    (h : isSeparator c = false) (htoken : firstToken c cs = (token, more)) (offset : Nat) :
    lexemes offset (c :: cs) =
      ⟨token, c :: cs.take more, ⟨offset, offset + byteLength (c :: cs.take more)⟩⟩ ::
        lexemes (offset + byteLength (c :: cs.take more)) (cs.drop more) := by
  rw [lexemes, if_neg (by simp [h]), htoken]

/-- Tokens move along with the text. -/
theorem lexemes_add (offset more : Nat) (cs : List Char) :
    lexemes (more + offset) cs = (lexemes offset cs).map (Lexeme.shift more) := by
  induction offset, cs using lexemes.induct with
  | case1 offset => rw [lexemes_nil, lexemes_nil, List.map_nil]
  | case2 offset c cs hc ih => rw [lexemes_separator hc, lexemes_separator hc, Nat.add_assoc, ih]
  | case3 offset c cs hc token length htoken text stop ih =>
      have hsep : isSeparator c = false := Bool.eq_false_iff.mpr hc
      rw [lexemes_token hsep htoken, lexemes_token hsep htoken, List.map_cons, Nat.add_assoc, ih]
      rfl

/-- A token stands in the text where its span says. -/
theorem selects_of_mem_lexemes {offset : Nat} {cs : List Char} {lexeme : Lexeme}
    (h : lexeme ∈ lexemes offset cs) :
    ∃ span : Span, span.Selects cs lexeme.text ∧ lexeme.span = span.shift offset := by
  induction offset, cs using lexemes.induct with
  | case1 offset =>
      rw [lexemes_nil] at h
      cases h
  | case2 offset c cs hc ih =>
      rw [lexemes_separator hc] at h
      obtain ⟨span, ⟨before, after, hcs, rfl⟩, hspan⟩ := ih h
      refine ⟨_, ⟨c :: before, after, by rw [hcs, List.cons_append], rfl⟩, ?_⟩
      rw [hspan]
      simp only [Span.shift, byteLength_cons, Nat.add_assoc]
  | case3 offset c cs hc token length htoken text stop ih =>
      rw [lexemes_token (Bool.eq_false_iff.mpr hc) htoken] at h
      rcases List.mem_cons.mp h with rfl | h
      · refine ⟨_, ⟨[], cs.drop length, ?_, rfl⟩, ?_⟩
        · rw [List.nil_append, List.cons_append, List.take_append_drop]
        · simp [Span.shift]
      · obtain ⟨span, ⟨before, after, hcs, rfl⟩, hspan⟩ := ih h
        refine ⟨_, ⟨text ++ before, after, ?_, rfl⟩, ?_⟩
        · rw [List.append_assoc, ← hcs, List.cons_append, List.take_append_drop]
        · rw [hspan]
          simp only [Span.shift, byteLength_append, stop, Nat.add_assoc]

def keywords : List String := ["if", "then", "else", "true", "false"]

/-- A letter or an underscore, then letters, underscores and digits, and no keyword. -/
structure IsIdentifier (word : List Char) : Prop where
  start : ∃ c cs, word = c :: cs ∧ isNameStart c = true ∧ ∀ d ∈ cs, isNameChar d = true
  not_keyword : String.ofList word ∉ keywords

theorem isIdentifier_cons_iff {c : Char} {cs : List Char} :
    IsIdentifier (c :: cs) ↔ isNameStart c = true ∧ cs.all isNameChar = true ∧
      String.ofList (c :: cs) ∉ keywords := by
  rw [List.all_eq_true]
  constructor
  · rintro ⟨⟨_, _, heq, hstart, hcs⟩, hkeyword⟩
    cases heq
    exact ⟨hstart, hcs, hkeyword⟩
  · rintro ⟨hstart, hcs, hkeyword⟩
    exact ⟨⟨c, cs, rfl, hstart, hcs⟩, hkeyword⟩

instance (word : List Char) : Decidable (IsIdentifier word) :=
  match word with
  | [] => isFalse fun h => nomatch h.start
  | _ :: _ => decidable_of_iff _ isIdentifier_cons_iff.symm

theorem forall_mem_head?_cons {p : Char → Prop} {c : Char} (h : p c) (rest : List Char) :
    ∀ d ∈ (c :: rest).head?, p d := by
  intro d hd
  cases hd
  exact h

/-- A text begins with a character of some kind. -/
def Begins (kind : Char → Bool) (text : List Char) : Prop := ∃ c ∈ text.head?, kind c = true

section Begins

variable {kind : Char → Bool} {text : List Char}

theorem Begins.append (h : Begins kind text) (rest : List Char) : Begins kind (text ++ rest) := by
  obtain ⟨c, hc, hkind⟩ := h
  exact ⟨c, by rw [List.head?_append, hc]; rfl, hkind⟩

/-- A text begins with no character of another kind. -/
theorem Begins.ne (h : Begins kind text) {d : Char} (hd : kind d = false) :
    ∀ c ∈ text.head?, c ≠ d := by
  rintro c hc rfl
  obtain ⟨c', hc', hkind⟩ := h
  rw [hc] at hc'
  cases hc'
  rw [hd] at hkind
  cases hkind

theorem begins_of_isIdentifier (h : IsIdentifier text) : Begins isNameStart text := by
  obtain ⟨c, cs, rfl, hstart, -⟩ := h.start
  exact ⟨c, rfl, hstart⟩

end Begins

theorem wordToken_eq_ident_iff {word : List Char} {name : String} :
    wordToken word = .ident name ↔ String.ofList word = name ∧ name ∉ keywords := by
  unfold wordToken
  constructor
  · intro h
    split at h
    all_goals cases h
    simp_all [keywords]
  · rintro ⟨rfl, hname⟩
    simp only [keywords, List.mem_cons, List.not_mem_nil, or_false, not_or] at hname
    obtain ⟨hif, hthen, helse, htrue, hfalse⟩ := hname
    split <;> simp_all

theorem isSeparator_of_isNameStart {c : Char} (h : isNameStart c = true) :
    isSeparator c = false := by
  simp only [isNameStart, Bool.or_eq_true, Bool.and_eq_true, decide_eq_true_eq, beq_iff_eq] at h
  simp only [isSeparator, Bool.or_eq_false_iff, beq_eq_false_iff_ne]
  refine ⟨⟨⟨⟨?_, ?_⟩, ?_⟩, ?_⟩, ?_⟩ <;> rintro rfl <;> revert h <;> decide

theorem take_length_takeWhile {α : Type} (p : α → Bool) (cs : List α) :
    cs.take (cs.takeWhile p).length = cs.takeWhile p :=
  (List.prefix_iff_eq_take.mp (List.takeWhile_prefix p)).symm

theorem takeWhile_append_of_stop {α : Type} {p : α → Bool} (cs : List α) {rest : List α}
    (h : ∀ c ∈ rest.head?, p c = false) : (cs ++ rest).takeWhile p = cs.takeWhile p := by
  induction cs with
  | nil =>
      cases rest with
      | nil => rfl
      | cons c rest =>
          have hc : p c = false := h c rfl
          rw [List.nil_append, List.takeWhile_cons, hc]
          rfl
  | cons c cs ih =>
      rw [List.cons_append, List.takeWhile_cons, List.takeWhile_cons, ih]

theorem numberToken_ne_ident (c : Char) (cs : List Char) (name : String) :
    (numberToken c cs).1 ≠ .ident name := by
  simp only [numberToken]
  repeat' split
  all_goals simp

theorem stringToken_ne_ident (cs : List Char) (name : String) :
    (stringToken cs).1 ≠ .ident name := by
  simp only [stringToken]
  split
  · cases unescape _ <;> simp
  · simp

theorem orLonger_cases (next : Char) (long short : Token) (cs : List Char) :
    orLonger next long short cs = (short, 0) ∨
      orLonger next long short cs = (long, 1) ∧ 1 ≤ cs.length := by
  cases cs with
  | nil => exact .inl rfl
  | cons c cs =>
      rw [orLonger]
      split
      · exact .inr ⟨rfl, Nat.le_add_left 1 cs.length⟩
      · exact .inl rfl

theorem orLonger_ne_ident {next : Char} {long short : Token} {cs : List Char} {name : String}
    (hlong : long ≠ .ident name) (hshort : short ≠ .ident name) :
    (orLonger next long short cs).1 ≠ .ident name := by
  rcases orLonger_cases next long short cs with h | ⟨h, -⟩
  · rw [h]
    exact hshort
  · rw [h]
    exact hlong

theorem firstToken_word {c : Char} (h : isNameStart c = true) (cs : List Char) :
    firstToken c cs =
      (wordToken (c :: cs.takeWhile isNameChar), (cs.takeWhile isNameChar).length) := by
  unfold firstToken
  rw [if_pos h]

/-- Only a word is read as a name. -/
theorem firstToken_eq_ident {c : Char} {cs : List Char} {name : String} {more : Nat}
    (h : firstToken c cs = (.ident name, more)) :
    isNameStart c = true ∧ more = (cs.takeWhile isNameChar).length ∧
      wordToken (c :: cs.takeWhile isNameChar) = .ident name := by
  have hfst : (firstToken c cs).1 = .ident name := by rw [h]
  by_cases hstart : isNameStart c = true
  · rw [firstToken_word hstart] at h
    obtain ⟨htoken, hmore⟩ := Prod.mk.inj h
    exact ⟨hstart, hmore.symm, htoken⟩
  · unfold firstToken at hfst
    rw [if_neg hstart] at hfst
    split at hfst
    · exact absurd hfst (numberToken_ne_ident c cs name)
    · split at hfst
      · exact absurd hfst (stringToken_ne_ident cs name)
      all_goals first
        | exact absurd hfst (orLonger_ne_ident (by simp) (by simp))
        | cases hfst

/-- The text of a name is the name. -/
theorem text_of_ident {offset : Nat} {cs : List Char} {lexeme : Lexeme} {name : String}
    (h : lexeme ∈ lexemes offset cs) (hname : lexeme.token = .ident name) :
    lexeme.text = name.toList ∧ IsIdentifier name.toList := by
  induction offset, cs using lexemes.induct with
  | case1 offset =>
      rw [lexemes_nil] at h
      cases h
  | case2 offset c cs hc ih =>
      rw [lexemes_separator hc] at h
      exact ih h
  | case3 offset c cs hc token length htoken text stop ih =>
      rw [lexemes_token (Bool.eq_false_iff.mpr hc) htoken] at h
      rcases List.mem_cons.mp h with rfl | h
      · obtain rfl : token = .ident name := hname
        obtain ⟨hstart, rfl, hword⟩ := firstToken_eq_ident htoken
        obtain ⟨rfl, hkeyword⟩ := wordToken_eq_ident_iff.mp hword
        rw [take_length_takeWhile, String.toList_ofList]
        have hrest : ∀ d ∈ cs.takeWhile isNameChar, isNameChar d = true :=
          fun d hd => List.mem_takeWhile_imp hd
        exact ⟨rfl, ⟨c, _, rfl, hstart, hrest⟩, hkeyword⟩
      · exact ih h

/-- The text behind the opening quote of a literal, as far as the lexer looks at it: a quote closes
the literal and a backslash takes the next character with it. -/
@[elab_as_elim]
theorem stringInduction {motive : List Char → Prop} (nil : motive [])
    (quote : ∀ cs, motive ('"' :: cs))
    (escape : ∀ c cs, motive cs → motive ('\\' :: c :: cs)) (backslash : motive ['\\'])
    (plain : ∀ c cs, c ≠ '"' → c ≠ '\\' → motive cs → motive (c :: cs)) (cs : List Char) :
    motive cs := by
  induction hlength : cs.length using Nat.strongRecOn generalizing cs with
  | ind n ih =>
      subst hlength
      cases cs with
      | nil => exact nil
      | cons c cs =>
          by_cases hquote : c = '"'
          · subst hquote
            exact quote cs
          · by_cases hbackslash : c = '\\'
            · subst hbackslash
              cases cs with
              | nil => exact backslash
              | cons d ds => exact escape d ds (ih _ (Nat.lt_succ_of_lt (Nat.lt_succ_self _)) ds rfl)
            · exact plain c cs hquote hbackslash (ih _ (Nat.lt_succ_self _) cs rfl)

theorem stringEnd_escape_of_ne {c : Char} (hc : c ≠ '\n') (cs : List Char) :
    stringEnd ('\\' :: c :: cs) = (stringEnd cs).add 2 := by
  rw [stringEnd, if_neg hc]

theorem stringEnd_cons {c : Char} (hquote : c ≠ '"') (hbackslash : c ≠ '\\') (cs : List Char) :
    stringEnd (c :: cs) = (stringEnd cs).add 1 := by
  rw [stringEnd.eq_def]
  split <;> simp_all

/-- A text in front of another is read as certain tokens, whatever follows them. -/
def Lexes (text : List Char) (tokens : List Token) (rest : List Char) : Prop :=
  ∀ offset, ∃ read : List Lexeme, read.map (·.token) = tokens ∧
    lexemes offset (text ++ rest) = read ++ lexemes (offset + byteLength text) rest

theorem Lexes.append {text text' rest : List Char} {tokens tokens' : List Token}
    (h : Lexes text tokens (text' ++ rest)) (h' : Lexes text' tokens' rest) :
    Lexes (text ++ text') (tokens ++ tokens') rest := by
  intro offset
  obtain ⟨read, htokens, hread⟩ := h offset
  obtain ⟨read', htokens', hread'⟩ := h' (offset + byteLength text)
  refine ⟨read ++ read', ?_, ?_⟩
  · rw [List.map_append, htokens, htokens']
  · rw [List.append_assoc, hread, hread', List.append_assoc, byteLength_append, Nat.add_assoc]

theorem lexes_space (rest : List Char) : Lexes [' '] [] rest := by
  intro offset
  exact ⟨[], rfl, lexemes_separator rfl offset rest⟩

/-- A text that is the first token of whatever it begins. -/
theorem lexes_token {c : Char} {cs rest : List Char} {token : Token} (hc : isSeparator c = false)
    (htoken : firstToken c (cs ++ rest) = (token, cs.length)) : Lexes (c :: cs) [token] rest := by
  intro offset
  refine ⟨[⟨token, c :: cs, ⟨offset, offset + byteLength (c :: cs)⟩⟩], rfl, ?_⟩
  rw [List.cons_append, lexemes_token hc htoken, List.take_left, List.drop_left]
  rfl

/-- A token of a single character. -/
theorem lexes_char {c : Char} {rest : List Char} {token : Token} (hc : isSeparator c = false)
    (htoken : firstToken c rest = (token, 0)) : Lexes [c] [token] rest :=
  lexes_token hc htoken

/-- A token of a single character that a certain character behind it would make longer. -/
theorem lexes_char_of_orLonger {c next : Char} {long short : Token} {rest : List Char}
    (hc : isSeparator c = false) (htoken : firstToken c rest = orLonger next long short rest)
    (h : ∀ d ∈ rest.head?, d ≠ next) : Lexes [c] [short] rest := by
  apply lexes_char hc
  rw [htoken]
  cases rest with
  | nil => rfl
  | cons d rest =>
      have hd : d ≠ next := h d rfl
      exact if_neg hd

/-- A word ends where something else follows. -/
theorem lexes_word {c : Char} {cs rest : List Char} (hstart : isNameStart c = true)
    (hcs : ∀ d ∈ cs, isNameChar d = true) (hrest : ∀ d ∈ rest.head?, isNameChar d = false) :
    Lexes (c :: cs) [wordToken (c :: cs)] rest := by
  have htake : (cs ++ rest).takeWhile isNameChar = cs := by
    rw [takeWhile_append_of_stop cs hrest]
    exact List.takeWhile_eq_self_iff.mpr hcs
  apply lexes_token (isSeparator_of_isNameStart hstart)
  rw [firstToken_word hstart, htake]

theorem lexes_identifier {word : List Char} (h : IsIdentifier word) {rest : List Char}
    (hrest : ∀ c ∈ rest.head?, isNameChar c = false) :
    Lexes word [.ident (String.ofList word)] rest := by
  obtain ⟨c, cs, rfl, hstart, hcs⟩ := h.start
  have hword := lexes_word hstart hcs hrest
  rw [wordToken_eq_ident_iff.mpr ⟨rfl, h.not_keyword⟩] at hword
  exact hword

end Calc

end ExprVet
