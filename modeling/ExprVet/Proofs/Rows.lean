import ExprVet.Proofs.Lexing
import ExprVet.Proofs.Parsing
import Mathlib.Data.List.Forall2

/-!
# Texts that are written to be read

A written text is read as certain tokens, and a parser accepts these tokens with a certain value. A
row of such texts with separators between them is read, token by token and value by value, as the
row of what each of them is read as.
-/

namespace ExprVet.Calc

/-- What follows a written text does not make its last token longer. -/
def Ends (rest : List Char) : Prop := ∀ c ∈ rest.head?, isNameChar c = false ∧ c ≠ '='

theorem ends_nil : Ends [] := by simp [Ends]

/-- A text of a header with the tokens that it is read as. There is no brace among them. -/
structure Written (text : List Char) (tokens : List Token) : Prop where
  lexes : ∀ rest, Ends rest → Lexes text tokens rest
  plain : ∀ token ∈ tokens, token ≠ .error ∧ token ≠ .lbrace

theorem Written.append {text text' : List Char} {tokens tokens' : List Token}
    (h : Written text tokens) (h' : Written text' tokens')
    (hends : ∀ rest, Ends rest → Ends (text' ++ rest)) :
    Written (text ++ text') (tokens ++ tokens') := by
  constructor
  · intro rest hrest
    exact (h.lexes _ (hends rest hrest)).append (h'.lexes rest hrest)
  · intro token hmem
    rcases List.mem_append.mp hmem with hmem | hmem
    · exact h.plain token hmem
    · exact h'.plain token hmem

theorem plain_bracketed {opened closed : Token} {tokens : List Token}
    (hopened : opened ≠ .error ∧ opened ≠ .lbrace) (hclosed : closed ≠ .error ∧ closed ≠ .lbrace)
    (htokens : ∀ token ∈ tokens, token ≠ .error ∧ token ≠ .lbrace) :
    ∀ token ∈ opened :: (tokens ++ [closed]), token ≠ .error ∧ token ≠ .lbrace := by
  intro token hmem
  rcases List.mem_cons.mp hmem with rfl | hmem
  · exact hopened
  · rcases List.mem_append.mp hmem with hmem | hmem
    · exact htokens token hmem
    · rw [List.mem_singleton.mp hmem]
      exact hclosed

/-- Items that are related one by one agree in what the relation makes equal. -/
theorem map_eq_map_of_forall₂ {α β γ : Type} {R : α → β → Prop} {f : α → γ} {g : β → γ}
    {xs : List α} {ys : List β} (h : List.Forall₂ R xs ys) (hsame : ∀ x y, R x y → g y = f x) :
    ys.map g = xs.map f := by
  have hmapped : List.Forall₂ (· = ·) (xs.map f) (ys.map g) := by
    rw [List.forall₂_map_left_iff, List.forall₂_map_right_iff]
    exact h.imp fun x y hxy => (hsame x y hxy).symm
  rw [List.forall₂_eq_eq_eq] at hmapped
  exact hmapped.symm

theorem map_eq_of_forall₂ {α β : Type} {R : α → β → Prop} {g : β → α} {xs : List α} {ys : List β}
    (h : List.Forall₂ R xs ys) (hsame : ∀ x y, R x y → g y = x) : ys.map g = xs :=
  (map_eq_map_of_forall₂ h hsame).trans (List.map_id xs)

/-- A row of items, each with its tokens, and the tokens of the whole. -/
inductive Row {β : Type} (item : β → List Token → Prop) (separator : Token) :
    List β → List Token → Prop
  | last {b : β} {tokens : List Token} (h : item b tokens) : Row item separator [b] tokens
  | more {b : β} {bs : List β} {tokens tokens' : List Token} (h : item b tokens)
      (rest : Row item separator bs tokens') :
      Row item separator (b :: bs) (tokens ++ separator :: tokens')

section Rows

variable {β : Type} {item : β → List Token → Prop} {separator : Token} {bs : List β}
  {tokens : List Token}

theorem exists_row (hne : bs ≠ []) (h : ∀ b ∈ bs, ∃ tokens, item b tokens) :
    ∃ tokens, Row item separator bs tokens := by
  induction bs with
  | nil => exact absurd rfl hne
  | cons b bs ih =>
      obtain ⟨tokens, hitem⟩ := h b List.mem_cons_self
      cases bs with
      | nil => exact ⟨tokens, .last hitem⟩
      | cons b' bs =>
          obtain ⟨tokens', hrow⟩ := ih (List.cons_ne_nil b' bs)
            fun c hc => h c (List.mem_cons_of_mem b hc)
          exact ⟨tokens ++ separator :: tokens', .more hitem hrow⟩

/-- No item has more tokens than the whole row. -/
theorem Row.imp {item' : β → List Token → Prop} (h : Row item separator bs tokens)
    (himp : ∀ b own, own.length ≤ tokens.length → item b own → item' b own) :
    Row item' separator bs tokens := by
  induction h with
  | last h => exact .last (himp _ _ (Nat.le_refl _) h)
  | @more b bs own tokens' h _ ih =>
      have hlength : (own ++ separator :: tokens').length = own.length + (tokens'.length + 1) := by
        rw [List.length_append, List.length_cons]
      refine .more (himp _ _ (by omega) h) (ih ?_)
      intro c own' hle
      exact himp c own' (by omega)

theorem Row.map {γ : Type} {f : β → γ} {item' : γ → List Token → Prop}
    (h : Row (fun b => item' (f b)) separator bs tokens) :
    Row item' separator (bs.map f) tokens := by
  induction h with
  | last h => exact .last h
  | more h _ ih => exact .more h ih

theorem Row.written {text : β → List Char} {between : List Char}
    (h : Row item separator bs tokens) (hitem : ∀ b own, item b own → Written (text b) own)
    (hbetween : ∀ rest, Lexes between [separator] rest) (hends : ∀ rest, Ends (between ++ rest))
    (hplain : separator ≠ .error ∧ separator ≠ .lbrace) :
    Written (between.intercalate (bs.map text)) tokens := by
  induction h with
  | last h =>
      rw [List.map_singleton, List.intercalate_singleton]
      exact hitem _ _ h
  | @more b bs own tokens' h hrow ih =>
      have hne : bs.map text ≠ [] := by
        cases hrow <;> exact List.cons_ne_nil _ _
      have hown := hitem b own h
      rw [List.map_cons, List.intercalate_cons_of_ne_nil hne, List.append_assoc]
      constructor
      · intro rest hrest
        have hlater := (hbetween _).append (ih.lexes rest hrest)
        apply (hown.lexes _ _).append hlater
        rw [List.append_assoc]
        exact hends _
      · intro token hmem
        rcases List.mem_append.mp hmem with hmem | hmem
        · exact hown.plain token hmem
        · rcases List.mem_cons.mp hmem with rfl | hmem
          · exact hplain
          · exact ih.plain token hmem

end Rows

namespace Parser

variable {α : Type} {p : Parser α}

/-- The parser takes certain tokens, whatever their places, for a value of a kind, provided that the
token after them is of another kind. -/
def Accepts (p : Parser α) (follow : Option Token → Prop) (tokens : List Token) (P : α → Prop) :
    Prop :=
  ∀ read stop rest, read.map (·.token) = tokens → follow (firstToken? rest) →
    ∃ value stop', P value ∧ p.Gives ⟨stop, read ++ rest⟩ (some (value, ⟨stop', rest⟩))

theorem Accepts.labelled {follow : Option Token → Prop} {tokens : List Token} {P : α → Prop}
    (h : p.Accepts follow tokens P) (construct : Construct) :
    (labelled construct p).Accepts follow tokens P := by
  intro read stop rest hread hfollow
  obtain ⟨value, stop', hP, hgives⟩ := h read stop rest hread hfollow
  exact ⟨value, stop', hP, hgives.labelled construct⟩

theorem Accepts.imp {follow follow' : Option Token → Prop} {tokens : List Token}
    {P Q : α → Prop} (h : p.Accepts follow tokens P) (hfollow : ∀ next, follow' next → follow next)
    (himp : ∀ value, P value → Q value) : p.Accepts follow' tokens Q := by
  intro read stop rest hread hrest
  obtain ⟨value, stop', hP, hgives⟩ := h read stop rest hread (hfollow _ hrest)
  exact ⟨value, stop', himp value hP, hgives⟩

theorem accepts_select {accept : Token → Option α} {token : Token} {value : α}
    (h : accept token = some value) (follow : Option Token → Prop) :
    (select accept).Accepts follow [token] (·.1 = value) := by
  intro read stop rest hread _
  obtain ⟨lexeme, rfl, htoken⟩ := List.map_eq_singleton_iff.mp hread
  rw [← htoken] at h
  exact ⟨(value, lexeme.span), lexeme.span.stop, rfl, gives_next h .somethingElse stop rest⟩

section Separated

variable {β : Type} {separator : Token} {bs : List β} {tokens : List Token}
  {follow : Option Token → Prop} {P : β → α → Prop}

/-- The first item of a row is given by itself, the others each with the separator before it. -/
theorem givesAll_of_row (h : Row (fun b own => p.Accepts follow own (P b)) separator bs tokens)
    (hseparator : follow (some separator)) {read : List Lexeme} (stop : Nat) {rest : List Lexeme}
    (hread : read.map (·.token) = tokens) (hrest : follow (firstToken? rest)) :
    ∃ first values middle stop', List.Forall₂ P bs (first :: values) ∧
      p.Gives ⟨stop, read ++ rest⟩ (some (first, middle)) ∧
      middle.rest.length ≤ read.length + rest.length ∧
      GivesAll (do let _ ← token separator; p) middle values ⟨stop', rest⟩ := by
  induction h generalizing read stop with
  | last h =>
      obtain ⟨first, stop', hP, hgives⟩ := h read stop rest hread hrest
      exact ⟨first, [], _, stop', .cons hP .nil, hgives, Nat.le_add_left _ _, .nil _⟩
  | more h _ ih =>
      obtain ⟨own, later, rfl, hown, hlater⟩ := List.map_eq_append_iff.mp hread
      obtain ⟨between, later, rfl, hbetween, hlater⟩ := List.map_eq_cons_iff.mp hlater
      have hfollow : follow (firstToken? (between :: (later ++ rest))) := by
        rw [← hbetween] at hseparator
        exact hseparator
      obtain ⟨first, stop1, hP, hgives⟩ := h own stop (between :: (later ++ rest)) hown hfollow
      obtain ⟨second, values, middle, stop', hall, hsecond, hlength, hgivesAll⟩ :=
        ih between.span.stop hlater
      refine ⟨first, second :: values, _, stop', .cons hP hall, ?_, ?_,
        .cons ((gives_token hbetween stop1 (later ++ rest)).bind hsecond) ?_ hgivesAll⟩
      · rw [List.append_assoc]
        exact hgives
      · simp only [List.length_append, List.length_cons]
        omega
      · simp only [List.length_append, List.length_cons]
        omega

theorem gives_next_item_none {q : Parser α} {stop : Nat} {rest : List Lexeme}
    (h : firstToken? rest ≠ some separator) :
    (do let _ ← token separator; q : Parser α).Gives ⟨stop, rest⟩ none :=
  Gives.bind_none (gives_token_none h)

theorem accepts_separated (h : Row (fun b own => p.Accepts follow own (P b)) separator bs tokens)
    (hseparator : follow (some separator)) :
    (separated p (token separator)).Accepts (fun next => follow next ∧ next ≠ some separator) tokens
      (List.Forall₂ P bs) := by
  intro read stop rest hread hrest
  obtain ⟨first, values, middle, stop', hall, hfirst, -, hvalues⟩ :=
    givesAll_of_row h hseparator stop hread hrest.1
  have hmany := hvalues.many (gives_next_item_none hrest.2)
  exact ⟨first :: values, stop', hall, hfirst.bind (hmany.bind (gives_pure _ _))⟩

theorem accepts_separatedOrNone
    (h : Row (fun b own => p.Accepts follow own (P b)) separator bs tokens)
    (hseparator : follow (some separator)) :
    (separatedOrNone p (token separator)).Accepts
      (fun next => follow next ∧ next ≠ some separator) tokens (List.Forall₂ P bs) := by
  intro read stop rest hread hrest
  obtain ⟨first, values, middle, stop', hall, hfirst, -, hvalues⟩ :=
    givesAll_of_row h hseparator stop hread hrest.1
  have hmany := hvalues.many (gives_next_item_none hrest.2)
  have hend : (optional (token separator)).Gives ⟨stop', rest⟩ (some (none, ⟨stop', rest⟩)) :=
    (gives_token_none hrest.2).optional_none
  exact ⟨first :: values, stop', hall,
    hfirst.optional.bind (hmany.bind (hend.bind (gives_pure _ _)))⟩

variable {last : Option Token → Prop}
  (hnone : ∀ cursor : Cursor, last (firstToken? cursor.rest) → p.Gives cursor none)

include hnone

/-- Where no item can begin there is no row. -/
theorem accepts_separatedOrNone_nil (q : Parser β) :
    (separatedOrNone p q).Accepts last [] (· = []) := by
  intro read stop rest hread hrest
  rw [List.map_eq_nil_iff.mp hread]
  exact ⟨[], stop, rfl, (hnone ⟨stop, rest⟩ hrest).optional_none.bind (gives_pure [] _)⟩

/-- A separator behind the last item is taken where no item can follow it. -/
theorem accepts_separatedOrNone_last
    (h : Row (fun b own => p.Accepts follow own (P b)) separator bs tokens)
    (hseparator : follow (some separator)) :
    (separatedOrNone p (token separator)).Accepts last (tokens ++ [separator])
      (List.Forall₂ P bs) := by
  intro read stop rest hread hrest
  obtain ⟨own, _, rfl, hown, hread⟩ := List.map_eq_append_iff.mp hread
  obtain ⟨between, rfl, hbetween⟩ := List.map_eq_singleton_iff.mp hread
  have hfollow : follow (firstToken? (between :: rest)) := by
    rw [← hbetween] at hseparator
    exact hseparator
  obtain ⟨first, values, middle, stop', hall, hfirst, -, hvalues⟩ :=
    givesAll_of_row h hseparator stop hown hfollow
  have htaken := gives_token hbetween stop' rest
  have hmany := hvalues.many (htaken.bind (hnone ⟨between.span.stop, rest⟩ hrest))
  refine ⟨first :: values, between.span.stop, hall, ?_⟩
  rw [List.append_assoc]
  exact hfirst.optional.bind (hmany.bind (htaken.optional.bind (gives_pure _ _)))

end Separated

end Parser

end ExprVet.Calc
