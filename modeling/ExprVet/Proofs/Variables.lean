import ExprVet.Calc.Tree
import ExprVet.Proofs.Grammar
import ExprVet.Proofs.Lexing
import ExprVet.Proofs.NameFindings

/-!
# Variables in tokens

A name is a variable unless an opening parenthesis follows. Applied to all tokens of a derivation
this finds the variables of the expression that is derived, as whatever joins two parts of an
expression is neither a name nor an opening parenthesis. Applied to all tokens of a snippet it finds
identifiers of its discovery, also when error tokens were taken out before.
-/

namespace ExprVet.Calc

/-- The variable that a token is, given the token after it. -/
def Lexeme.occurrence? (lexeme : Lexeme) (following : Option Token) : Option Occurrence :=
  match lexeme.token with
  | .ident name => if following = some .lparen then none else some (name, lexeme.span)
  | _ => none

theorem occurrence?_eq_some_iff {lexeme : Lexeme} {following : Option Token}
    {occurrence : Occurrence} : lexeme.occurrence? following = some occurrence ↔
      lexeme.token = .ident occurrence.1 ∧ lexeme.span = occurrence.2 ∧
        following ≠ some .lparen := by
  obtain ⟨name, span⟩ := occurrence
  unfold Lexeme.occurrence?
  split
  · rename_i found hfound
    rw [hfound]
    by_cases hparen : following = some .lparen
    · simp [hparen]
    · simp [hparen, Prod.mk.injEq]
  · rename_i hnot
    constructor
    · intro h
      cases h
    · rintro ⟨hident, -, -⟩
      exact absurd hident (hnot name)

/-- The variables among some tokens, from left to right. -/
def freeNames : List Lexeme → List Occurrence
  | [] => []
  | lexeme :: rest => (lexeme.occurrence? (firstToken? rest)).toList ++ freeNames rest

/-- A token that is no name and that makes no call of a name before it. -/
def Joint (token : Token) : Prop := token ≠ .lparen ∧ ∀ name, token ≠ .ident name

theorem freeNames_cons_of_not_ident {lexeme : Lexeme} (h : ∀ name, lexeme.token ≠ .ident name)
    (rest : List Lexeme) : freeNames (lexeme :: rest) = freeNames rest := by
  have hnone : lexeme.occurrence? (firstToken? rest) = none := by
    rw [Option.eq_none_iff_forall_ne_some]
    intro occurrence hsome
    exact h occurrence.1 (occurrence?_eq_some_iff.mp hsome).1
  rw [freeNames, hnone]
  rfl

theorem freeNames_append {xs ys : List Lexeme} (h : firstToken? ys ≠ some .lparen) :
    freeNames (xs ++ ys) = freeNames xs ++ freeNames ys := by
  induction xs with
  | nil => rfl
  | cons x xs ih =>
      have hnext : x.occurrence? (firstToken? (xs ++ ys)) = x.occurrence? (firstToken? xs) := by
        cases xs with
        | nil =>
            apply Option.ext
            intro occurrence
            rw [occurrence?_eq_some_iff, occurrence?_eq_some_iff]
            apply and_congr_right fun _ => and_congr_right fun _ => iff_of_true h ?_
            simp [firstToken?]
        | cons x' xs => rfl
      rw [List.cons_append, freeNames, freeNames, hnext, ih, List.append_assoc]

theorem freeNames_append_joint {joint : Lexeme} (h : Joint joint.token) (xs ys : List Lexeme) :
    freeNames (xs ++ joint :: ys) = freeNames xs ++ freeNames ys := by
  have hfirst : firstToken? (joint :: ys) ≠ some .lparen := by
    intro hparen
    exact h.1 (Option.some.inj hparen)
  rw [freeNames_append hfirst, freeNames_cons_of_not_ident h.2]

theorem freeNames_concat_joint {joint : Lexeme} (h : Joint joint.token) (xs : List Lexeme) :
    freeNames (xs ++ [joint]) = freeNames xs := by
  rw [freeNames_append_joint h, freeNames, List.append_nil]

/-- The keywords and the punctuation behind a part of an expression. -/
theorem joint_of_mem {token : Token} (h : token ∈ [.kwThen, .kwElse, .comma, .rparen, .rbrace]) :
    Joint token := by
  simp only [List.mem_cons, List.not_mem_nil, or_false] at h
  rcases h with rfl | rfl | rfl | rfl | rfl
  all_goals exact ⟨by simp, by simp⟩

theorem joint_of_operator {level : Level} {token : Token} {op : BinaryOp}
    (h : level.operator token = some op) : Joint token := by
  constructor
  · rintro rfl
    cases level <;> cases h
  · rintro name rfl
    cases level <;> cases h

theorem joint_of_comparisonToken {token : Token} {op : BinaryOp}
    (h : Parser.comparisonToken token = some op) : Joint token := by
  constructor
  · rintro rfl
    cases h
  · rintro name rfl
    cases h

def Phrase.occurrences : Phrase → List Occurrence
  | expr _ e => e.occurrences
  | arguments args | argumentList args => Expr.allOccurrences args

/-- The variables of what is derived are those among the tokens. -/
theorem Derives.occurrences_eq {read : List Lexeme} {phrase : Phrase} (h : Derives read phrase) :
    phrase.occurrences = freeNames read := by
  induction h with
  | operand _ ih => exact ih
  | binary hop _ _ ihleft ihright =>
      rw [freeNames_append_joint (joint_of_operator hop), ← ihleft, ← ihright]
      rfl
  | comparison hop _ _ ihleft ihright =>
      rw [freeNames_append_joint (joint_of_comparisonToken hop), ← ihleft, ← ihright]
      rfl
  | @unary op before read e hop _ ih =>
      rw [freeNames_cons_of_not_ident, ← ih]
      · rfl
      · intro name hname
        rw [hname] at hop
        cases hop
  | @literal value lexeme h =>
      rw [freeNames_cons_of_not_ident]
      · rfl
      · intro name hname
        rw [hname] at h
        cases h
  | @ident name lexeme h =>
      have hsome : lexeme.occurrence? none = some (name, lexeme.span) :=
        occurrence?_eq_some_iff.mpr ⟨h, rfl, by simp⟩
      have hnames : freeNames [lexeme] = (lexeme.occurrence? none).toList := List.append_nil _
      rw [hnames, hsome]
      rfl
  | @call callee name opened closed read args hname hopened _ hclosed ih =>
      have hnone : name.occurrence? (firstToken? (opened :: (read ++ [closed]))) = none := by
        rw [Option.eq_none_iff_forall_ne_some]
        intro occurrence hsome
        apply (occurrence?_eq_some_iff.mp hsome).2.2
        exact congrArg some hopened
      have hjoint : Joint closed.token := joint_of_mem (by simp [hclosed])
      rw [freeNames, hnone, Option.toList_none, List.nil_append, freeNames_cons_of_not_ident,
        freeNames_concat_joint hjoint, ← ih]
      · rfl
      · simp [hopened]
  | conditional hif _ hthen _ helse _ ihcondition ihthen ihelse =>
      rw [freeNames_cons_of_not_ident, freeNames_append_joint, freeNames_append_joint,
        ← ihcondition, ← ihthen, ← ihelse]
      · exact List.append_assoc _ _ _
      · exact joint_of_mem (by simp [helse])
      · exact joint_of_mem (by simp [hthen])
      · simp [hif]
  | parenthesised hopened _ hclosed ih =>
      rw [freeNames_cons_of_not_ident, freeNames_concat_joint, ← ih]
      · rfl
      · exact joint_of_mem (by simp [hclosed])
      · simp [hopened]
  | argument _ ih =>
      rw [← ih]
      exact List.append_nil _
  | moreArguments _ hcomma _ ih ihargs =>
      rw [freeNames_append_joint, ← ih, ← ihargs]
      · rfl
      · exact joint_of_mem (by simp [hcomma])
  | noArguments => rfl
  | someArguments _ ih => exact ih
  | lastComma _ hcomma ih =>
      rw [freeNames_concat_joint, ← ih]
      · rfl
      · exact joint_of_mem (by simp [hcomma])

/-- The tokens that the parser is given. -/
def withoutErrors (lexemes : List Lexeme) : List Lexeme := lexemes.filter (·.token != .error)

theorem withoutErrors_append (xs ys : List Lexeme) :
    withoutErrors (xs ++ ys) = withoutErrors xs ++ withoutErrors ys := List.filter_append xs ys

theorem withoutErrors_cons {lexeme : Lexeme} (h : lexeme.token ≠ .error) (rest : List Lexeme) :
    withoutErrors (lexeme :: rest) = lexeme :: withoutErrors rest :=
  List.filter_cons_of_pos (by simpa using h)

/-- Taking out error tokens hides no opening parenthesis. -/
theorem firstToken?_of_withoutErrors {lexemes : List Lexeme}
    (h : firstToken? (withoutErrors lexemes) ≠ some .lparen) :
    firstToken? lexemes ≠ some .lparen := by
  cases lexemes with
  | nil => simp [firstToken?]
  | cons lexeme rest =>
      intro hparen
      have htoken : lexeme.token = .lparen := Option.some.inj hparen
      apply h
      simp [withoutErrors, firstToken?, htoken]

theorem classify_eq_identifier_iff {token : Token} {following : Option Token} :
    NodeKind.classify token following = .identifier ↔
      (∃ name, token = .ident name) ∧ following ≠ some .lparen := by
  cases token with
  | ident name =>
      by_cases hparen : following = some .lparen
      · simp [NodeKind.classify, hparen]
      · simp [NodeKind.classify, hparen]
  | _ => simp [NodeKind.classify, Token.isOperator]

/-- A variable among the tokens that are no errors is an identifier node of all tokens. -/
theorem mem_nodesOf_of_mem_freeNames {lexemes : List Lexeme} {occurrence : Occurrence}
    (h : occurrence ∈ freeNames (withoutErrors lexemes)) :
    ∃ lexeme ∈ lexemes, lexeme.token = .ident occurrence.1 ∧ lexeme.span = occurrence.2 ∧
      ⟨.identifier, String.ofList lexeme.text, lexeme.span⟩ ∈ Tree.nodesOf lexemes := by
  induction lexemes with
  | nil => cases h
  | cons lexeme rest ih =>
      have hrest (h : occurrence ∈ freeNames (withoutErrors rest)) :
          ∃ found ∈ lexeme :: rest, found.token = .ident occurrence.1 ∧
            found.span = occurrence.2 ∧ ⟨.identifier, String.ofList found.text, found.span⟩ ∈
              Tree.nodesOf (lexeme :: rest) := by
        obtain ⟨found, hmem, hident, hspan, hnode⟩ := ih h
        exact ⟨found, List.mem_cons_of_mem _ hmem, hident, hspan, List.mem_cons_of_mem _ hnode⟩
      by_cases herror : lexeme.token = .error
      · have hskip : withoutErrors (lexeme :: rest) = withoutErrors rest := by
          simp [withoutErrors, herror]
        rw [hskip] at h
        exact hrest h
      · have hkeep : withoutErrors (lexeme :: rest) = lexeme :: withoutErrors rest := by
          simp [withoutErrors, herror]
        rw [hkeep, freeNames] at h
        rcases List.mem_append.mp h with h | h
        · obtain ⟨hident, hspan, hnext⟩ := occurrence?_eq_some_iff.mp (Option.mem_toList.mp h)
          have hkind : NodeKind.classify lexeme.token (firstToken? rest) = .identifier :=
            classify_eq_identifier_iff.mpr ⟨⟨_, hident⟩, firstToken?_of_withoutErrors hnext⟩
          refine ⟨lexeme, List.mem_cons_self, hident, hspan, ?_⟩
          rw [Tree.nodesOf, ← hkind]
          exact List.mem_cons_self
        · exact hrest h

theorem occurrence?_shift (offset : Nat) (lexeme : Lexeme) (following : Option Token) :
    (lexeme.shift offset).occurrence? following =
      (lexeme.occurrence? following).map fun occurrence =>
        (occurrence.1, occurrence.2.shift offset) := by
  apply Option.ext
  rintro ⟨name, span⟩
  rw [occurrence?_eq_some_iff, Option.map_eq_some_iff]
  constructor
  · rintro ⟨hident, hspan, hnext⟩
    exact ⟨(name, lexeme.span), occurrence?_eq_some_iff.mpr ⟨hident, rfl, hnext⟩,
      Prod.ext rfl hspan⟩
  · rintro ⟨occurrence, hsome, heq⟩
    obtain ⟨hident, hspan, hnext⟩ := occurrence?_eq_some_iff.mp hsome
    cases heq
    exact ⟨hident, congrArg (Span.shift offset) hspan, hnext⟩

theorem freeNames_map_shift (offset : Nat) (lexemes : List Lexeme) :
    freeNames (lexemes.map (Lexeme.shift offset)) =
      (freeNames lexemes).map fun occurrence =>
        (occurrence.1, occurrence.2.shift offset) := by
  induction lexemes with
  | nil => rfl
  | cons lexeme rest ih =>
      have hnext : firstToken? (rest.map (Lexeme.shift offset)) = firstToken? rest := by
        cases rest <;> rfl
      rw [List.map_cons, freeNames, freeNames, hnext, occurrence?_shift, ih, List.map_append]
      congr 1
      cases lexeme.occurrence? (firstToken? rest) <;> rfl

end ExprVet.Calc
