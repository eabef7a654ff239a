import ExprVet.Calc.Parser.Lambda

/-!
# What a failed parse leaves behind

No parser drops the expectations that are pending, and a parser that fails leaves some. So whenever
the tokens of a wrapper form no lambda there is something to report.
-/

namespace ExprVet.Calc.Parser

variable {α β : Type}

/-- Pending expectations stay pending, though maybe others. -/
def Keeps (p : Parser α) : Prop :=
  ∀ cursor pending, pending.isSome → (p cursor pending).2.isSome

/-- Where the parser fails, expectations are pending. -/
def Tells (p : Parser α) : Prop :=
  ∀ cursor pending, (p cursor pending).1 = none → (p cursor pending).2.isSome

variable {p q : Parser α}

theorem keeps_pure (value : α) : (pure value : Parser α).Keeps := fun _ _ h => h

theorem tells_pure (value : α) : (pure value : Parser α).Tells := fun _ _ h => nomatch h

/-- Each of two parsers keeps what is pending when it starts. -/
theorem Keeps.bind {next : α → Parser β} (h : p.Keeps) (hnext : ∀ value, (next value).Keeps) :
    (p >>= next).Keeps := by
  intro cursor pending hpending
  change (Parser.bind p next cursor pending).2.isSome
  have hfirst := h cursor pending hpending
  simp only [Parser.bind]
  split
  · rename_i hrun
    rwa [hrun] at hfirst
  · rename_i hrun
    rw [hrun] at hfirst
    exact hnext _ _ _ hfirst

/-- A sequence fails in one of its parts. -/
theorem Tells.bind {next : α → Parser β} (h : p.Tells) (hnext : ∀ value, (next value).Tells) :
    (p >>= next).Tells := by
  intro cursor pending
  change (Parser.bind p next cursor pending).1 = none → (Parser.bind p next cursor pending).2.isSome
  have hfirst := h cursor pending
  simp only [Parser.bind]
  split
  · rename_i hrun
    rw [hrun] at hfirst
    exact fun _ => hfirst rfl
  · exact hnext _ _ _

theorem keeps_next (accept : Token → Option α) (expected : Expected) :
    (next accept expected).Keeps := by
  intro cursor pending hpending
  simp only [next]
  repeat' split
  all_goals first | exact hpending | rfl

/-- A token that is missed is expected from then on. -/
theorem tells_next (accept : Token → Option α) (expected : Expected) :
    (next accept expected).Tells := by
  intro cursor pending
  simp only [next]
  repeat' split
  all_goals simp

theorem keeps_token (expected : Token) : (token expected).Keeps :=
  (keeps_next _ _).bind fun _ => keeps_pure _

theorem tells_token (expected : Token) : (token expected).Tells :=
  (tells_next _ _).bind fun _ => tells_pure _

theorem tells_endOfInput : endOfInput.Tells := by
  intro cursor pending
  simp only [endOfInput]
  split <;> simp

theorem Keeps.orElse (h : p.Keeps) (hq : q.Keeps) : (orElse p q).Keeps := by
  intro cursor pending hpending
  have hfirst := h cursor pending hpending
  simp only [Parser.orElse]
  split
  · rename_i hrun
    rw [hrun] at hfirst
    exact hq _ _ hfirst
  · exact hfirst

/-- What the first parser misses is still pending when the second one fails. -/
theorem Tells.orElse (h : p.Tells) (hq : q.Keeps) : (orElse p q).Tells := by
  intro cursor pending hnone
  have hfirst := h cursor pending
  simp only [Parser.orElse] at hnone ⊢
  split
  · rename_i hrun
    rw [hrun] at hfirst
    exact hq _ _ (hfirst rfl)
  · rename_i hsome
    split at hnone
    · rename_i hrun
      exact absurd hrun (hsome _)
    · exact hfirst hnone

theorem Keeps.optional (h : p.Keeps) : (optional p).Keeps := by
  intro cursor pending hpending
  have hfirst := h cursor pending hpending
  simp only [Parser.optional]
  split
  all_goals
    rename_i hrun
    rwa [hrun] at hfirst

/-- A parser that cannot fail has nothing to tell. -/
theorem tells_optional (p : Parser α) : (optional p).Tells := by
  intro cursor pending
  simp only [optional]
  split <;> exact nofun

theorem Keeps.many (h : p.Keeps) : (many p).Keeps := by
  have hupTo (n : Nat) : (manyUpTo p n).Keeps := by
    induction n with
    | zero => exact keeps_pure []
    | succ n ih =>
        apply h.optional.bind
        rintro (_ | value)
        · exact keeps_pure []
        · exact ih.bind fun _ => keeps_pure _
  exact fun cursor => hupTo _ cursor

theorem tells_many (p : Parser α) : (many p).Tells := by
  have hupTo (n : Nat) : (manyUpTo p n).Tells := by
    induction n with
    | zero => exact tells_pure []
    | succ n ih =>
        apply (tells_optional p).bind
        rintro (_ | value)
        · exact tells_pure []
        · exact ih.bind fun _ => tells_pure _
  exact fun cursor => hupTo _ cursor

theorem Keeps.separatedOrNone {separator : Parser β} (h : p.Keeps) (hseparator : separator.Keeps) :
    (separatedOrNone p separator).Keeps := by
  apply h.optional.bind
  rintro (_ | first)
  · exact keeps_pure []
  · apply (hseparator.bind fun _ => h).many.bind
    intro more
    exact hseparator.optional.bind fun _ => keeps_pure _

theorem Keeps.bracketed (h : p.Keeps) (opening closing : Token) :
    (do
      let _ ← token opening
      let value ← p
      let _ ← token closing
      return value : Parser α).Keeps := by
  apply (keeps_token _).bind
  intro _
  apply h.bind
  intro value
  exact (keeps_token _).bind fun _ => keeps_pure value

/-- A construct is read from a fresh start, and what was pending before is merged with the rest. -/
theorem keeps_labelled (construct : Construct) (p : Parser α) : (labelled construct p).Keeps := by
  rintro cursor (_ | saved) hpending
  · cases hpending
  · simp only [labelled]
    cases (p cursor none).2 <;> rfl

/-- To name a construct drops no expectation. -/
theorem Tells.labelled (h : p.Tells) (construct : Construct) : (labelled construct p).Tells := by
  intro cursor saved hnone
  obtain ⟨own, hown⟩ := Option.isSome_iff_exists.mp (h cursor none hnone)
  simp only [Parser.labelled, hown]
  cases saved <;> rfl

theorem Tells.spanned (h : p.Tells) : (spanned p).Tells := by
  intro cursor pending
  have hfirst := h cursor pending
  simp only [Parser.spanned]
  split
  · rename_i hrun
    rw [hrun] at hfirst
    exact fun _ => hfirst rfl
  · exact nofun

theorem tells_path : path.Tells := by
  apply Tells.bind
  · apply (tells_next _ _).bind
    intro first
    exact (tells_many _).bind fun _ => tells_pure _
  · exact fun _ => tells_pure _

/-- A type fails at its path or within its brackets, whatever its arguments are. -/
theorem tells_typeWith (inner : Parser TypeRef) : (typeWith inner).Tells := by
  apply Tells.bind
  · apply Tells.spanned
    apply tells_path.bind
    intro path
    exact (tells_optional _).bind fun _ => tells_pure _
  · exact fun _ => tells_pure _

theorem tells_type : type.Tells := by
  apply Tells.labelled
  exact fun cursor => tells_typeWith _ cursor

section Levels

variable {expr : Parser Expr}

theorem tells_chain {operand : Parser Expr} (h : operand.Tells) (op : Parser BinaryOp) :
    (chain operand op).Tells := by
  apply h.bind
  intro first
  exact (tells_many _).bind fun _ => tells_pure _

theorem keeps_parenthesised (h : expr.Keeps) : (parenthesised expr).Keeps :=
  h.bracketed .lparen .rparen

/-- All alternatives but the first only have to keep what the first one misses. -/
theorem tells_atom (h : expr.Keeps) : (atom expr).Tells := by
  have hliteral : literal.Tells := ((tells_next _ _).bind fun _ => tells_pure _).labelled .literal
  have hvariable : variableName.Keeps := (keeps_labelled _ _).bind fun _ => keeps_pure _
  exact hliteral.orElse <| (keeps_labelled _ _).orElse <| hvariable.orElse <|
    (keeps_labelled _ _).orElse (keeps_parenthesised h)

theorem tells_unary (h : expr.Keeps) : (unary expr).Tells := by
  apply (tells_many _).bind
  intro ops
  exact (tells_atom h).bind fun _ => tells_pure _

/-- Each level fails where its first operand does, as the rest of it is optional. -/
theorem tells_disjunction (h : expr.Keeps) : (disjunction expr).Tells := by
  have hsum : (sum expr).Tells := tells_chain (tells_chain (tells_unary h) _) _
  have hcomparison : (comparison expr).Tells := by
    apply hsum.bind
    intro left
    exact (tells_optional _).bind fun _ => tells_pure _
  exact tells_chain (tells_chain hcomparison _) _

end Levels

theorem keeps_exprUpTo (depth : Nat) : (exprUpTo depth).Keeps := by
  cases depth with
  | zero => exact fun _ _ h => h
  | succ depth => exact keeps_labelled _ _

theorem tells_expr : expr.Tells := by
  intro cursor
  exact (tells_disjunction (keeps_exprUpTo _)).labelled .expression cursor

theorem keeps_parameters : parameters.Keeps :=
  ((keeps_labelled _ _).separatedOrNone (keeps_token _)).bracketed .pipe .pipe

theorem tells_lambda : lambda.Tells := by
  have hparams : (orElse noParameters parameters).Tells :=
    ((tells_token _).bind fun _ => tells_pure _).orElse keeps_parameters
  apply Tells.labelled
  apply hparams.bind
  intro params
  apply (tells_token _).bind
  intro _
  apply tells_type.bind
  intro ret
  apply (tells_token _).bind
  intro brace
  apply tells_expr.bind
  intro body
  exact (tells_token _).bind fun _ => tells_pure _

/-- Tokens that form no value leave an expectation. -/
theorem Tells.isSome_of_run (h : p.Tells) {start : Nat} {tokens : List Lexeme}
    {pending : Option Pending} (hrun : p.run start tokens = .error pending) : pending.isSome := by
  have hwhole : (do let value ← p; endOfInput; return value : Parser α).Tells :=
    h.bind fun _ => tells_endOfInput.bind fun _ => tells_pure _
  have hnone := hwhole ⟨start, tokens⟩ none
  simp only [run] at hrun
  split at hrun
  · cases hrun
  · rename_i found hresult
    cases hrun
    rw [hresult] at hnone
    exact hnone rfl

end ExprVet.Calc.Parser
