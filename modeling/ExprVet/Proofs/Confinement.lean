import ExprVet.Calc.Parser.Lambda

/-!
# Parsers stay among their tokens

Whatever a parser reads and wherever it fails, the tokens that are left, and those at which
expectations are pending, are among the tokens that it was given. So a failed parse is reported at
one of them or at the end of the source.
-/

namespace ExprVet.Calc

/-- The places at which expectations are pending have some of the tokens left. -/
def Pending.Among (tokens : List Lexeme) (pending : Option Pending) : Prop :=
  ∀ missed ∈ pending, missed.rest ⊆ tokens

namespace Pending

variable {tokens rest : List Lexeme} {pending : Option Pending}

theorem among_none : Among tokens none := nofun

/-- An expectation is offered at the tokens that are left, or the pending ones are further. -/
theorem Among.offer (h : Among tokens pending) (hrest : rest ⊆ tokens) (expected : Expected) :
    Among tokens (some (Pending.offer rest expected pending)) := by
  rintro _ ⟨⟩
  cases pending with
  | none => exact hrest
  | some missed =>
      have hmissed := h missed rfl
      simp only [Pending.offer]
      repeat' split
      all_goals first | exact hrest | exact hmissed

theorem Among.relabel (h : Among tokens pending) (place : List Lexeme) (construct : Construct) :
    Among tokens (pending.map (Pending.relabel place construct)) := by
  intro missed hmem
  obtain ⟨own, hown, rfl⟩ := Option.map_eq_some_iff.mp hmem
  have hrest := h own hown
  rw [Pending.relabel]
  split <;> exact hrest

/-- The merged expectations are at the place of one of the two. -/
theorem Among.merge {saved own : Option Pending} (hsaved : Among tokens saved)
    (hown : Among tokens own) : Among tokens (mergeOption saved own) := by
  rcases saved with _ | saved <;> rcases own with _ | own
  · exact among_none
  · exact hown
  · exact hsaved
  · have hfirst : saved.rest ⊆ tokens := hsaved saved rfl
    have hsecond : own.rest ⊆ tokens := hown own rfl
    rintro _ ⟨⟩
    rw [Pending.merge]
    repeat' split
    all_goals first | exact hfirst | exact hsecond

end Pending

namespace Parser

variable {α β : Type} {tokens : List Lexeme}

/-- What a run of a parser leaves is among some tokens. -/
structure LeavesAmong (tokens : List Lexeme) (outcome : Option (α × Cursor) × Option Pending) :
    Prop where
  rest : ∀ found after, outcome.1 = some (found, after) → after.rest ⊆ tokens
  pending : Pending.Among tokens outcome.2

/-- From any place among some tokens the parser stays among them. -/
def Stays (tokens : List Lexeme) (p : Parser α) : Prop :=
  ∀ cursor pending, cursor.rest ⊆ tokens → Pending.Among tokens pending →
    LeavesAmong tokens (p cursor pending)

theorem LeavesAmong.fail {pending : Option Pending} (h : Pending.Among tokens pending) :
    LeavesAmong tokens ((none, pending) : Option (α × Cursor) × Option Pending) := ⟨nofun, h⟩

theorem LeavesAmong.succeed {value : α} {after : Cursor} {pending : Option Pending}
    (hrest : after.rest ⊆ tokens) (h : Pending.Among tokens pending) :
    LeavesAmong tokens (some (value, after), pending) := by
  refine ⟨?_, h⟩
  rintro _ _ ⟨⟩
  exact hrest

variable {p q : Parser α}

theorem stays_pure (value : α) : Stays tokens (pure value : Parser α) :=
  fun _ _ hrest hpending => .succeed hrest hpending

theorem stays_fail : Stays tokens (fail : Parser α) := fun _ _ _ hpending => .fail hpending

/-- The second parser starts from what the first one leaves. -/
theorem Stays.bind {next : α → Parser β} (h : Stays tokens p)
    (hnext : ∀ value, Stays tokens (next value)) : Stays tokens (p >>= next) := by
  intro cursor pending hrest hpending
  change LeavesAmong tokens (Parser.bind p next cursor pending)
  have hfirst := h cursor pending hrest hpending
  simp only [Parser.bind]
  split
  · rename_i hrun
    rw [hrun] at hfirst
    exact .fail hfirst.pending
  · rename_i hrun
    rw [hrun] at hfirst
    exact hnext _ _ _ (hfirst.rest _ _ rfl) hfirst.pending

/-- A token that is read is taken from the front, and one that is missed is missed there. -/
theorem stays_next (accept : Token → Option α) (expected : Expected) :
    Stays tokens (next accept expected) := by
  intro cursor pending hrest hpending
  have hmissed := hpending.offer hrest expected
  simp only [next]
  split
  · exact .fail hmissed
  · rename_i hcursor
    split
    · rw [hcursor] at hrest
      exact .succeed (fun _ hmem => hrest (List.mem_cons_of_mem _ hmem)) hpending
    · exact .fail hmissed

theorem stays_token (expected : Token) : Stays tokens (token expected) :=
  (stays_next _ _).bind fun _ => stays_pure _

theorem stays_select (accept : Token → Option α) : Stays tokens (select accept) := stays_next _ _

theorem stays_endOfInput : Stays tokens endOfInput := by
  intro cursor pending hrest hpending
  simp only [endOfInput]
  split
  · exact .succeed hrest hpending
  · exact .fail (hpending.offer hrest .endOfInput)

/-- The second parser starts where the first one did. -/
theorem Stays.orElse (h : Stays tokens p) (hq : Stays tokens q) : Stays tokens (orElse p q) := by
  intro cursor pending hrest hpending
  have hfirst := h cursor pending hrest hpending
  simp only [Parser.orElse]
  split
  · rename_i hrun
    rw [hrun] at hfirst
    exact hq _ _ hrest hfirst.pending
  · exact hfirst

theorem Stays.optional (h : Stays tokens p) : Stays tokens (optional p) := by
  intro cursor pending hrest hpending
  have hfirst := h cursor pending hrest hpending
  simp only [Parser.optional]
  split
  · rename_i hrun
    rw [hrun] at hfirst
    exact .succeed hrest hfirst.pending
  · rename_i hrun
    rw [hrun] at hfirst
    exact .succeed (hfirst.rest _ _ rfl) hfirst.pending

/-- Each round starts from what the one before leaves. -/
theorem Stays.many (h : Stays tokens p) : Stays tokens (many p) := by
  have hupTo (n : Nat) : Stays tokens (manyUpTo p n) := by
    induction n with
    | zero => exact stays_pure []
    | succ n ih =>
        apply h.optional.bind
        rintro (_ | value)
        · exact stays_pure []
        · exact ih.bind fun _ => stays_pure _
  exact fun cursor => hupTo _ cursor

theorem Stays.separated {separator : Parser β} (h : Stays tokens p)
    (hseparator : Stays tokens separator) : Stays tokens (separated p separator) := by
  apply h.bind
  intro first
  exact (hseparator.bind fun _ => h).many.bind fun _ => stays_pure _

theorem Stays.separatedOrNone {separator : Parser β} (h : Stays tokens p)
    (hseparator : Stays tokens separator) : Stays tokens (separatedOrNone p separator) := by
  apply h.optional.bind
  rintro (_ | first)
  · exact stays_pure []
  · apply (hseparator.bind fun _ => h).many.bind
    intro more
    exact hseparator.optional.bind fun _ => stays_pure _

theorem Stays.bracketed (h : Stays tokens p) (opening closing : Token) :
    Stays tokens (do
      let _ ← token opening
      let value ← p
      let _ ← token closing
      return value) := by
  apply (stays_token _).bind
  intro _
  apply h.bind
  intro value
  exact (stays_token _).bind fun _ => stays_pure value

/-- To name a construct changes what was expected and not where. -/
theorem Stays.labelled (h : Stays tokens p) (construct : Construct) :
    Stays tokens (labelled construct p) := by
  intro cursor saved hrest hsaved
  have hown := h cursor none hrest Pending.among_none
  exact ⟨hown.rest, hsaved.merge (hown.pending.relabel _ _)⟩

theorem Stays.spanned (h : Stays tokens p) : Stays tokens (spanned p) := by
  intro cursor pending hrest hpending
  have hfirst := h cursor pending hrest hpending
  simp only [Parser.spanned]
  split
  · rename_i hrun
    rw [hrun] at hfirst
    exact .fail hfirst.pending
  · rename_i hrun
    rw [hrun] at hfirst
    exact .succeed (hfirst.rest _ _ rfl) hfirst.pending

theorem stays_path : Stays tokens path :=
  ((stays_select _).separated (stays_token _)).bind fun _ => stays_pure _

/-- A type stays among its tokens when its arguments do. -/
theorem stays_typeWith {inner : Parser TypeRef} (h : Stays tokens inner) :
    Stays tokens (typeWith inner) := by
  have hargs : Stays tokens (do
      let _ ← token .lt
      let args ← Parser.separated inner (token .comma)
      let _ ← token .gt
      return args) :=
    (h.separated (stays_token _)).bracketed .lt .gt
  apply Stays.bind
  · apply Stays.spanned
    apply stays_path.bind
    intro path
    exact hargs.optional.bind fun _ => stays_pure _
  · exact fun _ => stays_pure _

theorem stays_typeUpTo (depth : Nat) : Stays tokens (typeUpTo depth) := by
  induction depth with
  | zero => exact stays_fail
  | succ depth ih => exact stays_typeWith ih

theorem stays_type : Stays tokens type := by
  apply Stays.labelled
  exact fun cursor => stays_typeUpTo _ cursor

theorem stays_operator (accept : Token → Option BinaryOp) : Stays tokens (operator accept) :=
  (stays_select _).bind fun _ => stays_pure _

theorem stays_name : Stays tokens name := (stays_select _).labelled .identifier

section Levels

variable {expr : Parser Expr}

/-- A chain stays among its tokens when its operands and operators do. -/
theorem stays_chain {operand : Parser Expr} {op : Parser BinaryOp} (h : Stays tokens operand)
    (hop : Stays tokens op) : Stays tokens (chain operand op) := by
  apply h.bind
  intro first
  apply Stays.bind
  · exact (hop.bind fun op => h.bind fun _ => stays_pure _).many
  · exact fun _ => stays_pure _

theorem stays_arguments (h : Stays tokens expr) : Stays tokens (arguments expr) :=
  (h.separatedOrNone (stays_token _)).bracketed .lparen .rparen

theorem stays_call (h : Stays tokens expr) : Stays tokens (call expr) := by
  apply Stays.labelled
  apply Stays.bind
  · apply Stays.spanned
    apply stays_name.bind
    intro callee
    exact (stays_arguments h).bind fun _ => stays_pure _
  · exact fun _ => stays_pure _

theorem stays_conditional (h : Stays tokens expr) : Stays tokens (conditional expr) := by
  apply Stays.labelled
  apply Stays.bind
  · apply Stays.spanned
    apply (stays_token _).bind
    intro _
    apply h.bind
    intro condition
    apply (stays_token _).bind
    intro _
    apply h.bind
    intro thenBranch
    apply (stays_token _).bind
    intro _
    exact h.bind fun _ => stays_pure _
  · exact fun _ => stays_pure _

theorem stays_parenthesised (h : Stays tokens expr) : Stays tokens (parenthesised expr) :=
  h.bracketed .lparen .rparen

/-- Whatever an atom is, its parser stays among the tokens when that of whole expressions does. -/
theorem stays_atom (h : Stays tokens expr) : Stays tokens (atom expr) := by
  have hliteral : Stays tokens literal :=
    ((stays_select _).bind fun _ => stays_pure _).labelled .literal
  have hvariable : Stays tokens variableName := stays_name.bind fun _ => stays_pure _
  exact hliteral.orElse <| (stays_call h).orElse <| hvariable.orElse <|
    (stays_conditional h).orElse (stays_parenthesised h)

theorem stays_sum (h : Stays tokens expr) : Stays tokens (sum expr) := by
  have hunary : Stays tokens (unary expr) := by
    apply (stays_select _).many.bind
    intro ops
    exact (stays_atom h).bind fun _ => stays_pure _
  exact stays_chain (stays_chain hunary (stays_operator _)) (stays_operator _)

theorem stays_comparison (h : Stays tokens expr) : Stays tokens (comparison expr) := by
  apply (stays_sum h).bind
  intro left
  apply Stays.bind
  · exact ((stays_operator _).bind fun op => (stays_sum h).bind fun _ => stays_pure _).optional
  · exact fun _ => stays_pure _

theorem stays_disjunction (h : Stays tokens expr) : Stays tokens (disjunction expr) := by
  have hword (expected : Token) (op : BinaryOp) :
      Stays tokens (do let _ ← token expected; return op : Parser BinaryOp) :=
    (stays_token _).bind fun _ => stays_pure _
  exact stays_chain (stays_chain (stays_comparison h) (hword _ _)) (hword _ _)

end Levels

/-- An expression within parentheses, arguments or branches is one of less depth. -/
theorem stays_exprUpTo (depth : Nat) : Stays tokens (exprUpTo depth) := by
  induction depth with
  | zero => exact stays_fail
  | succ depth ih => exact (stays_disjunction ih).labelled .expression

theorem stays_expr : Stays tokens expr := fun cursor => stays_exprUpTo _ cursor

theorem stays_parameter : Stays tokens parameter := by
  apply Stays.labelled
  apply Stays.bind
  · apply Stays.spanned
    apply (stays_select _).bind
    intro name
    apply (stays_token _).bind
    intro _
    exact stays_type.bind fun _ => stays_pure _
  · exact fun _ => stays_pure _

theorem stays_params : Stays tokens (Parser.orElse noParameters parameters) := by
  apply Stays.orElse
  · exact (stays_token _).bind fun _ => stays_pure _
  · exact (stays_parameter.separatedOrNone (stays_token _)).bracketed .pipe .pipe

/-- The parser of wrappers stays among the tokens of a wrapper. -/
theorem stays_lambda : Stays tokens lambda := by
  apply Stays.labelled
  apply stays_params.bind
  intro params
  apply (stays_token _).bind
  intro _
  apply stays_type.bind
  intro ret
  apply (stays_token _).bind
  intro brace
  apply stays_expr.bind
  intro body
  exact (stays_token _).bind fun _ => stays_pure _

/-- Where a parse fails, the tokens that are left are tokens that it was given. -/
theorem Stays.among_of_run (h : Stays tokens p) {start : Nat} {pending : Option Pending}
    (hrun : p.run start tokens = .error pending) : Pending.Among tokens pending := by
  have hwhole : Stays tokens (do let value ← p; endOfInput; return value : Parser α) :=
    h.bind fun _ => stays_endOfInput.bind fun _ => stays_pure _
  have hleft := hwhole ⟨start, tokens⟩ none (List.Subset.refl _) Pending.among_none
  simp only [run] at hrun
  split at hrun
  · cases hrun
  · rename_i found hresult
    cases hrun
    rw [hresult] at hleft
    exact hleft.pending

end Parser

end ExprVet.Calc
