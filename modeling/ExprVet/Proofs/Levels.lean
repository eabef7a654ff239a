import ExprVet.Proofs.Grammar
import ExprVet.Proofs.Rows

/-!
# What the parsers of expressions give

The forward counterpart of the soundness of each level. The parsers that repeat, for signs in front
of an operand and for operators with their operands, are described by what they have given so far,
so that a further sign or operator can be added; what is given then becomes their result where none
follows.
-/

namespace ExprVet.Calc

/-- What neither continues an expression nor makes a call of a name. -/
structure Closes (next : Option Token) : Prop where
  operator : ∀ level : Level, ∀ token ∈ next, level.operator token = none
  comparison : ∀ token ∈ next, Parser.comparisonToken token = none
  lparen : next ≠ some .lparen

theorem closes_of_mem {token : Token}
    (h : token ∈ [.kwThen, .kwElse, .comma, .rparen, .rbrace]) : Closes (some token) := by
  simp only [List.mem_cons, List.not_mem_nil, or_false] at h
  constructor
  · rintro level _ ⟨⟩
    rcases h with rfl | rfl | rfl | rfl | rfl <;> cases level <;> rfl
  · rintro _ ⟨⟩
    rcases h with rfl | rfl | rfl | rfl | rfl <;> rfl
  · rcases h with rfl | rfl | rfl | rfl | rfl <;> simp

theorem closes_cons {lexeme : Lexeme} {token : Token} (h : lexeme.token = token)
    (hmem : token ∈ [.kwThen, .kwElse, .comma, .rparen, .rbrace]) (rest : List Lexeme) :
    Closes (firstToken? (lexeme :: rest)) := by
  rw [firstToken?, List.head?_cons, Option.map_some, h]
  exact closes_of_mem hmem

namespace Parser

/-- A parser of the operators that some tokens are. -/
structure Operates (op : Parser BinaryOp) (accept : Token → Option BinaryOp) : Prop where
  gives : ∀ {lexeme : Lexeme} {value : BinaryOp}, accept lexeme.token = some value →
    ∀ stop rest, op.Gives ⟨stop, lexeme :: rest⟩ (some (value, ⟨lexeme.span.stop, rest⟩))
  gives_none : ∀ {cursor : Cursor}, (∀ token ∈ firstToken? cursor.rest, accept token = none) →
    op.Gives cursor none

theorem operates_operator (accept : Token → Option BinaryOp) :
    Operates (operator accept) accept := by
  constructor
  · intro lexeme value h stop rest
    exact (gives_next h .somethingElse stop rest).bind (gives_pure value _)
  · intro cursor h
    exact (gives_next_none h .somethingElse).bind_none

theorem operates_token {expected : Token} {op : BinaryOp} {accept : Token → Option BinaryOp}
    (h : accept = fun token => if token = expected then some op else none) :
    Operates (do let _ ← token expected; return op) accept := by
  constructor
  · intro lexeme value haccept stop rest
    rw [h] at haccept
    obtain ⟨htoken, hvalue⟩ := Option.ite_none_right_eq_some.mp haccept
    rw [← Option.some.inj hvalue]
    exact (gives_token htoken stop rest).bind (gives_pure op _)
  · intro cursor hnone
    apply Gives.bind_none
    apply gives_token_none
    intro hfirst
    have hmissed := hnone expected hfirst
    simp [h] at hmissed

theorem operates_and :
    Operates (do let _ ← token .and; return .and) Level.conjunction.operator := by
  apply operates_token
  funext token
  cases token <;> rfl

theorem operates_or : Operates (do let _ ← token .or; return .or) Level.disjunction.operator := by
  apply operates_token
  funext token
  cases token <;> rfl

/-- An operand and some operators with their operands have been given; others may follow. -/
def ChainGives (operand : Parser Expr) (op : Parser BinaryOp) (cursor : Cursor) (e : Expr)
    (after : Cursor) : Prop :=
  ∃ first middle more, operand.Gives cursor (some (first, middle)) ∧
    GivesAll (do let op ← op; return (op, ← operand)) middle more after ∧
    e = more.foldl (fun left (op, right) => .joined op left right) first

section Chain

variable {operand : Parser Expr} {op : Parser BinaryOp} {accept : Token → Option BinaryOp}
  {cursor after : Cursor} {e : Expr}

theorem ChainGives.of_operand (h : operand.Gives cursor (some (e, after))) :
    ChainGives operand op cursor e after :=
  ⟨e, after, [], h, .nil after, rfl⟩

theorem ChainGives.step {stop : Nat} {between : Lexeme} {rest : List Lexeme} {right : Expr}
    {value : BinaryOp} (h : ChainGives operand op cursor e ⟨stop, between :: rest⟩)
    (hop : Operates op accept) (haccept : accept between.token = some value)
    (hright : operand.Gives ⟨between.span.stop, rest⟩ (some (right, after)))
    (hle : after.rest.length ≤ rest.length) :
    ChainGives operand op cursor (.joined value e right) after := by
  obtain ⟨first, middle, more, hfirst, hmore, rfl⟩ := h
  have hpair : (do let op ← op; return (op, ← operand) : Parser (BinaryOp × Expr)).Gives
      ⟨stop, between :: rest⟩ (some ((value, right), after)) :=
    (hop.gives haccept stop rest).bind (hright.bind (gives_pure (value, right) after))
  refine ⟨first, middle, more ++ [(value, right)], hfirst, ?_, ?_⟩
  · exact hmore.append (.cons hpair (Nat.lt_succ_of_le hle) (.nil after))
  · rw [List.foldl_append]
    rfl

theorem ChainGives.gives (h : ChainGives operand op cursor e after) (hop : Operates op accept)
    (hend : ∀ token ∈ firstToken? after.rest, accept token = none) :
    (chain operand op).Gives cursor (some (e, after)) := by
  obtain ⟨first, middle, more, hfirst, hmore, rfl⟩ := h
  exact hfirst.bind ((hmore.many (hop.gives_none hend).bind_none).bind (gives_pure _ after))

end Chain

section Levels

variable {expr : Parser Expr} {cursor after : Cursor} {e : Expr}

theorem gives_comparison_alone (h : (sum expr).Gives cursor (some (e, after)))
    (hend : ∀ token ∈ firstToken? after.rest, comparisonToken token = none) :
    (comparison expr).Gives cursor (some (e, after)) := by
  have hnone := (operates_operator comparisonToken).gives_none hend
  exact h.bind (hnone.bind_none.optional_none.bind (gives_pure e after))

theorem gives_comparison {stop : Nat} {between : Lexeme} {rest : List Lexeme} {right : Expr}
    {value : BinaryOp} (h : (sum expr).Gives cursor (some (e, ⟨stop, between :: rest⟩)))
    (haccept : comparisonToken between.token = some value)
    (hright : (sum expr).Gives ⟨between.span.stop, rest⟩ (some (right, after))) :
    (comparison expr).Gives cursor (some (.joined value e right, after)) := by
  apply Gives.bind h
  apply Gives.bind
  · apply Gives.optional
    apply Gives.bind ((operates_operator comparisonToken).gives haccept stop rest)
    apply Gives.bind hright
    exact gives_pure (value, right) after
  · exact gives_pure (Expr.joined value e right) after

/-- Some signs and an atom have been given; further signs may stand in front. -/
def UnaryGives (expr : Parser Expr) (cursor : Cursor) (e : Expr) (after : Cursor) : Prop :=
  ∃ ops middle operand, GivesAll (select prefixToken) cursor ops middle ∧
    (select prefixToken).Gives middle none ∧ (atom expr).Gives middle (some (operand, after)) ∧
    e = ops.foldr (fun (op, span) operand => .unary op operand (span.join operand.span)) operand

theorem UnaryGives.of_atom (h : (atom expr).Gives cursor (some (e, after)))
    (hend : ∀ token ∈ firstToken? cursor.rest, prefixToken token = none) :
    UnaryGives expr cursor e after :=
  ⟨[], cursor, e, .nil cursor, gives_next_none hend .somethingElse, h, rfl⟩

theorem UnaryGives.cons {before : Lexeme} {rest : List Lexeme} {op : UnaryOp}
    (h : UnaryGives expr ⟨before.span.stop, rest⟩ e after)
    (hop : prefixToken before.token = some op) (stop : Nat) :
    UnaryGives expr ⟨stop, before :: rest⟩ (.unary op e (before.span.join e.span)) after := by
  obtain ⟨ops, middle, operand, hops, hend, hatom, rfl⟩ := h
  have hsign := gives_next hop .somethingElse stop rest
  exact ⟨(op, before.span) :: ops, middle, operand, .cons hsign (Nat.lt_succ_self _) hops, hend,
    hatom, rfl⟩

theorem UnaryGives.gives (h : UnaryGives expr cursor e after) :
    (unary expr).Gives cursor (some (e, after)) := by
  obtain ⟨ops, middle, operand, hops, hend, hatom, rfl⟩ := h
  exact (hops.many hend).bind (hatom.bind (gives_pure _ after))

theorem gives_literal_none (h : ∀ token ∈ firstToken? cursor.rest, literalToken token = none) :
    literal.Gives cursor none :=
  (gives_next_none h .somethingElse).bind_none.labelled .literal

theorem literalToken_of_ident {token : Token} {found : String} (h : token = .ident found) :
    literalToken token = none := by
  rw [h]
  rfl

theorem gives_name_none (h : ∀ token ∈ firstToken? cursor.rest, identToken token = none) :
    name.Gives cursor none :=
  (gives_next_none h .somethingElse).labelled .identifier

theorem gives_name {lexeme : Lexeme} {found : String} (h : lexeme.token = .ident found)
    (stop : Nat) (rest : List Lexeme) : name.Gives ⟨stop, lexeme :: rest⟩
      (some ((found, lexeme.span), ⟨lexeme.span.stop, rest⟩)) :=
  (gives_next (identToken_eq_some_iff.mpr h) .somethingElse stop rest).labelled .identifier

theorem gives_call_none (h : ∀ token ∈ firstToken? cursor.rest, identToken token = none) :
    (call expr).Gives cursor none :=
  (gives_name_none h).bind_none.spanned_none.bind_none.labelled .call

theorem accepts_literal {token : Token} {value : Literal} (h : literalToken token = some value)
    (follow : Option Token → Prop) :
    (atom expr).Accepts follow [token] fun e => ∃ span, e = .literal value span := by
  intro read stop rest hread _
  obtain ⟨lexeme, rfl, htoken⟩ := List.map_eq_singleton_iff.mp hread
  rw [← htoken] at h
  refine ⟨.literal value lexeme.span, lexeme.span.stop, ⟨_, rfl⟩, ?_⟩
  apply Gives.orElse_left
  apply Gives.labelled
  apply Gives.bind (gives_next h .somethingElse stop rest)
  exact gives_pure _ _

/-- A name without an opening parenthesis behind it is no call. -/
theorem accepts_variable (found : String) :
    (atom expr).Accepts (· ≠ some .lparen) [.ident found] fun e =>
      ∃ span, e = .ident found span := by
  intro read stop rest hread hrest
  obtain ⟨lexeme, rfl, htoken⟩ := List.map_eq_singleton_iff.mp hread
  have hname := gives_name htoken stop rest
  have hparen : (token .lparen).Gives ⟨lexeme.span.stop, rest⟩ none := gives_token_none hrest
  have hcall : (call expr).Gives ⟨stop, lexeme :: rest⟩ none :=
    (hname.bind hparen.bind_none.bind_none).spanned_none.bind_none.labelled .call
  refine ⟨.ident found lexeme.span, lexeme.span.stop, ⟨_, rfl⟩, ?_⟩
  apply Gives.orElse_right
  · apply gives_literal_none
    rintro _ ⟨⟩
    exact literalToken_of_ident htoken
  · apply Gives.orElse_right hcall
    apply Gives.orElse_left
    apply Gives.bind hname
    exact gives_pure _ _

theorem accepts_call (callee : String) {tokens : List Token} {P : List Expr → Prop}
    (h : (separatedOrNone expr (token .comma)).Accepts (· = some .rparen) tokens P)
    (follow : Option Token → Prop) :
    (atom expr).Accepts follow (.ident callee :: .lparen :: (tokens ++ [.rparen])) fun e =>
      ∃ nameSpan args span, P args ∧ e = .call callee nameSpan args span := by
  intro read stop rest hread _
  obtain ⟨name, _, rfl, hname, hread⟩ := List.map_eq_cons_iff.mp hread
  obtain ⟨opened, _, rfl, hopened, hread⟩ := List.map_eq_cons_iff.mp hread
  obtain ⟨inner, _, rfl, hinner, hread⟩ := List.map_eq_append_iff.mp hread
  obtain ⟨closed, rfl, hclosed⟩ := List.map_eq_singleton_iff.mp hread
  have hfollow : firstToken? (closed :: rest) = some .rparen := by
    rw [firstToken?, List.head?_cons, Option.map_some, hclosed]
  obtain ⟨args, stop', hargs, hgives⟩ :=
    h inner opened.span.stop (closed :: rest) hinner hfollow
  have hlist : (arguments expr).Gives ⟨name.span.stop, opened :: (inner ++ closed :: rest)⟩
      (some (args, ⟨closed.span.stop, rest⟩)) :=
    hgives.bracketed hopened hclosed name.span.stop
  refine ⟨.call callee name.span args ⟨name.span.start, closed.span.stop⟩, closed.span.stop,
    ⟨_, args, _, hargs, rfl⟩, ?_⟩
  simp only [List.cons_append, List.append_assoc, List.nil_append]
  apply Gives.orElse_right
  · apply gives_literal_none
    rintro _ ⟨⟩
    exact literalToken_of_ident hname
  · apply Gives.orElse_left
    apply Gives.labelled
    apply Gives.bind
    · apply Gives.spanned
      apply Gives.bind (gives_name hname stop _)
      apply Gives.bind hlist
      exact gives_pure ((callee, name.span), args) _
    · exact gives_pure _ _

/-- Neither a literal nor a name stands at the beginning of the other atoms. -/
theorem gives_atom_of_neither {result : Option (Expr × Cursor)}
    (hliteral : ∀ token ∈ firstToken? cursor.rest, literalToken token = none)
    (hname : ∀ token ∈ firstToken? cursor.rest, identToken token = none)
    (h : (orElse (conditional expr) (parenthesised expr)).Gives cursor result) :
    (atom expr).Gives cursor result := by
  apply Gives.orElse_right (gives_literal_none hliteral)
  apply Gives.orElse_right (gives_call_none hname)
  exact Gives.orElse_right (gives_name_none hname).bind_none h

theorem accepts_parenthesised {tokens : List Token} {P : Expr → Prop}
    (h : expr.Accepts Closes tokens P) (follow : Option Token → Prop) :
    (atom expr).Accepts follow (.lparen :: (tokens ++ [.rparen])) P := by
  intro read stop rest hread _
  obtain ⟨opened, _, rfl, hopened, hread⟩ := List.map_eq_cons_iff.mp hread
  obtain ⟨inner, _, rfl, hinner, hread⟩ := List.map_eq_append_iff.mp hread
  obtain ⟨closed, rfl, hclosed⟩ := List.map_eq_singleton_iff.mp hread
  obtain ⟨e, stop', he, hgives⟩ := h inner opened.span.stop (closed :: rest) hinner
    (closes_cons hclosed (by simp) rest)
  refine ⟨e, closed.span.stop, he, ?_⟩
  simp only [List.cons_append, List.append_assoc, List.nil_append]
  have hif : (token .kwIf).Gives ⟨stop, opened :: (inner ++ closed :: rest)⟩ none := by
    apply gives_token_none
    simp [firstToken?, hopened]
  apply gives_atom_of_neither
  · simp [firstToken?, hopened, literalToken]
  · simp [firstToken?, hopened, identToken]
  · apply Gives.orElse_right (hif.bind_none.spanned_none.bind_none.labelled .conditional)
    exact hgives.bracketed hopened hclosed stop

/-- A conditional goes on as far as its else branch does. -/
theorem exists_gives_conditional {inCondition inThen inElse : List Token} {P Q : Expr → Prop}
    (hcondition : expr.Accepts Closes inCondition P) (hthen : expr.Accepts Closes inThen Q)
    {read : List Lexeme}
    (hread : read.map (·.token) =
      .kwIf :: (inCondition ++ .kwThen :: (inThen ++ .kwElse :: inElse))) :
    ∃ start readElse, readElse.map (·.token) = inElse ∧ readElse.length < read.length ∧
      ∀ stop rest elseBranch after,
        expr.Gives ⟨start, readElse ++ rest⟩ (some (elseBranch, after)) →
          ∃ condition thenBranch span, P condition ∧ Q thenBranch ∧
            (atom expr).Gives ⟨stop, read ++ rest⟩
              (some (.conditional condition thenBranch elseBranch span, after)) := by
  obtain ⟨kwIf, _, rfl, hif, hread⟩ := List.map_eq_cons_iff.mp hread
  obtain ⟨readCondition, _, rfl, hreadCondition, hread⟩ := List.map_eq_append_iff.mp hread
  obtain ⟨kwThen, _, rfl, hkwThen, hread⟩ := List.map_eq_cons_iff.mp hread
  obtain ⟨readThen, _, rfl, hreadThen, hread⟩ := List.map_eq_append_iff.mp hread
  obtain ⟨kwElse, readElse, rfl, hkwElse, hreadElse⟩ := List.map_eq_cons_iff.mp hread
  refine ⟨kwElse.span.stop, readElse, hreadElse, ?_, ?_⟩
  · simp only [List.length_cons, List.length_append]
    omega
  · intro stop rest elseBranch after helse
    obtain ⟨condition, stop1, hP, hgives1⟩ := hcondition readCondition kwIf.span.stop
      (kwThen :: (readThen ++ kwElse :: (readElse ++ rest))) hreadCondition
      (closes_cons hkwThen (by simp) _)
    obtain ⟨thenBranch, stop2, hQ, hgives2⟩ := hthen readThen kwThen.span.stop
      (kwElse :: (readElse ++ rest)) hreadThen (closes_cons hkwElse (by simp) _)
    refine ⟨condition, thenBranch, ⟨kwIf.span.start, after.stop⟩, hP, hQ, ?_⟩
    simp only [List.cons_append, List.append_assoc]
    apply gives_atom_of_neither
    · simp [firstToken?, hif, literalToken]
    · simp [firstToken?, hif, identToken]
    · apply Gives.orElse_left
      apply Gives.labelled
      apply Gives.bind
      · apply Gives.spanned
        apply Gives.bind (gives_token hif stop _)
        apply Gives.bind hgives1
        apply Gives.bind (gives_token hkwThen stop1 _)
        apply Gives.bind hgives2
        apply Gives.bind (gives_token hkwElse stop2 _)
        apply Gives.bind helse
        exact gives_pure (condition, thenBranch, elseBranch) after
      · exact gives_pure _ after

/-- No expression begins with a closing parenthesis. -/
theorem gives_exprUpTo_none (h : firstToken? cursor.rest = some .rparen) (depth : Nat) :
    (exprUpTo depth).Gives cursor none := by
  cases depth with
  | zero =>
      intro pending
      rfl
  | succ depth =>
      have hfirst {α : Type} {accept : Token → Option α} (hrparen : accept .rparen = none) :
          ∀ token ∈ firstToken? cursor.rest, accept token = none := by
        rw [h]
        rintro _ ⟨⟩
        exact hrparen
      have hif : (token .kwIf).Gives cursor none := gives_token_none (by simp [h])
      have hparen : (token .lparen).Gives cursor none := gives_token_none (by simp [h])
      have hatom : (atom (exprUpTo depth)).Gives cursor none :=
        gives_atom_of_neither (hfirst rfl) (hfirst rfl) <|
          (hif.bind_none.spanned_none.bind_none.labelled .conditional).orElse_right
            hparen.bind_none
      have hsigns : (many (select prefixToken)).Gives cursor (some ([], cursor)) :=
        (GivesAll.nil cursor).many (gives_next_none (hfirst rfl) .somethingElse)
      have hunary : (unary (exprUpTo depth)).Gives cursor none := hsigns.bind hatom.bind_none
      -- the levels above begin with an operand of the level below
      have hsum : (sum (exprUpTo depth)).Gives cursor none := hunary.bind_none.bind_none
      have hdisjunction : (disjunction (exprUpTo depth)).Gives cursor none :=
        hsum.bind_none.bind_none.bind_none
      exact hdisjunction.labelled .expression

end Levels

/-- What is accepted with every depth that suffices is accepted as an expression. -/
theorem accepts_expr_of_exprUpTo {tokens : List Token} {P : Expr → Prop}
    (h : ∀ depth, tokens.length ≤ depth → (exprUpTo depth).Accepts Closes tokens P) :
    expr.Accepts Closes tokens P := by
  intro read stop rest hread hrest
  have hdepth : tokens.length ≤ (read ++ rest).length + 1 := by
    rw [← hread, List.length_map, List.length_append]
    omega
  obtain ⟨e, stop', he, hgives⟩ := h _ hdepth read stop rest hread hrest
  refine ⟨e, stop', he, fun pending => ?_⟩
  rw [expr]
  exact hgives pending

end Parser

end ExprVet.Calc
