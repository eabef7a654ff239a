import ExprVet.Calc.Parser.Expr
import ExprVet.Proofs.Parsing

/-!
# The grammar of expressions

`Derives` is the grammar as a relation between tokens and what they stand for, places included. What
the parser reads derives from the grammar: one lemma for each level of binding strength takes this
from the levels below to the next, and the depth of nesting closes the circle.
-/

namespace ExprVet.Calc

/-- Levels of binding strength, the loosest first. -/
inductive Level where
  | disjunction | conjunction | comparison | sum | product | unary | atom
  deriving DecidableEq, Repr

namespace Level

/-- The level of the operands of a level. -/
def operand : Level → Level
  | disjunction => conjunction
  | conjunction => comparison
  | comparison => sum
  | sum => product
  | product => unary
  | unary | atom => atom

/-- The operators that join operands of a level from the left. -/
def operator : Level → Token → Option BinaryOp
  | disjunction, .or => some .or
  | conjunction, .and => some .and
  | sum, token => Parser.sumToken token
  | product, token => Parser.productToken token
  | _, _ => none

end Level

/-- What tokens can stand for. -/
inductive Phrase where
  | expr (level : Level) (e : Expr)
  /-- At least one argument, with commas between them. -/
  | arguments (args : List Expr)
  /-- Any number of arguments and possibly a last comma. -/
  | argumentList (args : List Expr)

/-- The grammar of expressions. -/
inductive Derives : List Lexeme → Phrase → Prop
  | operand {level : Level} {read : List Lexeme} {e : Expr}
      (h : Derives read (.expr level.operand e)) : Derives read (.expr level e)
  | binary {level : Level} {op : BinaryOp} {left right : List Lexeme} {between : Lexeme}
      {first second : Expr} (hop : level.operator between.token = some op)
      (hleft : Derives left (.expr level first))
      (hright : Derives right (.expr level.operand second)) :
      Derives (left ++ between :: right) (.expr level (.joined op first second))
  | comparison {op : BinaryOp} {left right : List Lexeme} {between : Lexeme} {first second : Expr}
      (hop : Parser.comparisonToken between.token = some op) (hleft : Derives left (.expr .sum first))
      (hright : Derives right (.expr .sum second)) :
      Derives (left ++ between :: right) (.expr .comparison (.joined op first second))
  | unary {op : UnaryOp} {before : Lexeme} {read : List Lexeme} {e : Expr}
      (hop : Parser.prefixToken before.token = some op) (h : Derives read (.expr .unary e)) :
      Derives (before :: read) (.expr .unary (.unary op e (before.span.join e.span)))
  | literal {value : Literal} {lexeme : Lexeme} (h : Parser.literalToken lexeme.token = some value) :
      Derives [lexeme] (.expr .atom (.literal value lexeme.span))
  | ident {name : String} {lexeme : Lexeme} (h : lexeme.token = .ident name) :
      Derives [lexeme] (.expr .atom (.ident name lexeme.span))
  | call {callee : String} {name opened closed : Lexeme} {read : List Lexeme} {args : List Expr}
      (hname : name.token = .ident callee) (hopened : opened.token = .lparen)
      (hargs : Derives read (.argumentList args)) (hclosed : closed.token = .rparen) :
      Derives (name :: opened :: (read ++ [closed]))
        (.expr .atom (.call callee name.span args (stretch (name :: opened :: (read ++ [closed])))))
  | conditional {kwIf kwThen kwElse : Lexeme} {inCondition inThen inElse : List Lexeme}
      {condition thenBranch elseBranch : Expr} (hif : kwIf.token = .kwIf)
      (hcondition : Derives inCondition (.expr .disjunction condition))
      (hthen : kwThen.token = .kwThen)
      (hthenBranch : Derives inThen (.expr .disjunction thenBranch))
      (helse : kwElse.token = .kwElse)
      (helseBranch : Derives inElse (.expr .disjunction elseBranch)) :
      Derives (kwIf :: (inCondition ++ kwThen :: (inThen ++ kwElse :: inElse)))
        (.expr .atom (.conditional condition thenBranch elseBranch
          (stretch (kwIf :: (inCondition ++ kwThen :: (inThen ++ kwElse :: inElse))))))
  | parenthesised {opened closed : Lexeme} {read : List Lexeme} {e : Expr}
      (hopened : opened.token = .lparen) (h : Derives read (.expr .disjunction e))
      (hclosed : closed.token = .rparen) : Derives (opened :: (read ++ [closed])) (.expr .atom e)
  | argument {read : List Lexeme} {e : Expr} (h : Derives read (.expr .disjunction e)) :
      Derives read (.arguments [e])
  | moreArguments {read reads : List Lexeme} {comma : Lexeme} {e : Expr} {args : List Expr}
      (h : Derives read (.expr .disjunction e)) (hcomma : comma.token = .comma)
      (hargs : Derives reads (.arguments args)) :
      Derives (read ++ comma :: reads) (.arguments (e :: args))
  | noArguments : Derives [] (.argumentList [])
  | someArguments {read : List Lexeme} {args : List Expr} (h : Derives read (.arguments args)) :
      Derives read (.argumentList args)
  | lastComma {read : List Lexeme} {comma : Lexeme} {args : List Expr}
      (h : Derives read (.arguments args)) (hcomma : comma.token = .comma) :
      Derives (read ++ [comma]) (.argumentList args)

/-- The tokens read as an expression of a level. -/
abbrev DerivesAt (level : Level) (read : List Lexeme) (e : Expr) : Prop :=
  Derives read (.expr level e)

namespace Parser

/-- A value with its place, read from a single token. -/
def ReadsToken {α : Type} (accept : Token → Option α) (read : List Lexeme) (value : α × Span) :
    Prop :=
  ∃ lexeme, read = [lexeme] ∧ accept lexeme.token = some value.1 ∧ value.2 = lexeme.span

theorem sound_select {α : Type} (accept : Token → Option α) :
    (select accept).Sound (ReadsToken accept) := by
  rintro cursor ⟨value, span⟩ after hyields
  obtain ⟨lexeme, haccept, hspan, hreads⟩ := yields_next hyields
  exact ⟨[lexeme], hreads, lexeme, rfl, haccept, hspan⟩

theorem identToken_eq_some_iff {token : Token} {name : String} :
    identToken token = some name ↔ token = .ident name := by
  cases token <;> simp [identToken]

/-- An operator read from a single token. -/
def ReadsOperator (accept : Token → Option BinaryOp) (read : List Lexeme) (op : BinaryOp) : Prop :=
  ∃ lexeme, read = [lexeme] ∧ accept lexeme.token = some op

theorem sound_operator (accept : Token → Option BinaryOp) :
    (operator accept).Sound (ReadsOperator accept) := by
  intro cursor op after hyields
  obtain ⟨⟨found, span⟩, middle, hselect, hpure⟩ := yields_bind hyields
  obtain ⟨rfl, rfl⟩ := yields_pure hpure
  obtain ⟨read, hreads, lexeme, rfl, haccept, -⟩ := sound_select accept hselect
  exact ⟨[lexeme], hreads, lexeme, rfl, haccept⟩

/-- A level may have a single operator. -/
theorem sound_fixed {accept : Token → Option BinaryOp} {expected : Token} {op : BinaryOp}
    (h : accept expected = some op) :
    (do let _ ← token expected; return op : Parser BinaryOp).Sound (ReadsOperator accept) := by
  intro cursor value after hyields
  obtain ⟨_, middle, htoken, hpure⟩ := yields_bind hyields
  obtain ⟨rfl, rfl⟩ := yields_pure hpure
  obtain ⟨lexeme, hlexeme, -, hreads⟩ := yields_token htoken
  exact ⟨[lexeme], hreads, lexeme, rfl, by rw [hlexeme, h]⟩

theorem derivesAt_foldl {level : Level} {left reads : List Lexeme} {first : Expr}
    {more : List (BinaryOp × Expr)} (hfirst : DerivesAt level left first)
    (hmore : Many (fun read pair => ∃ between right, read = between :: right ∧
      level.operator between.token = some pair.1 ∧ DerivesAt level.operand right pair.2)
        reads more) :
    DerivesAt level (left ++ reads)
      (more.foldl (fun left (op, right) => .joined op left right) first) := by
  induction hmore generalizing left first with
  | nil =>
      rw [List.append_nil]
      exact hfirst
  | cons hnext _ ih =>
      obtain ⟨between, right, rfl, hop, hright⟩ := hnext
      rw [← List.append_assoc]
      exact ih (.binary hop hfirst hright)

theorem sound_chain {level : Level} {operand : Parser Expr} {op : Parser BinaryOp}
    (hoperand : operand.Sound (DerivesAt level.operand))
    (hop : op.Sound (ReadsOperator level.operator)) :
    (chain operand op).Sound (DerivesAt level) := by
  have hnext : (do let op ← op; return (op, ← operand) : Parser (BinaryOp × Expr)).Sound
      fun read pair => ∃ between right, read = between :: right ∧
        level.operator between.token = some pair.1 ∧ DerivesAt level.operand right pair.2 := by
    intro cursor pair after hyields
    obtain ⟨found, middle, hfound, hrest⟩ := yields_bind hyields
    obtain ⟨right, last, hright, hpure⟩ := yields_bind hrest
    obtain ⟨rfl, rfl⟩ := yields_pure hpure
    obtain ⟨read, hread, between, rfl, haccept⟩ := hop hfound
    obtain ⟨reads, hreads, hderives⟩ := hoperand hright
    exact ⟨between :: reads, hread.append hreads, between, reads, rfl, haccept, hderives⟩
  intro cursor e after hyields
  obtain ⟨first, middle, hfirst, hrest⟩ := yields_bind hyields
  obtain ⟨more, last, hmore, hpure⟩ := yields_bind hrest
  obtain ⟨rfl, rfl⟩ := yields_pure hpure
  obtain ⟨left, hleft, hderives⟩ := hoperand hfirst
  obtain ⟨reads, hreads, hmany⟩ := hnext.many hmore
  exact ⟨left ++ reads, hleft.append hreads, derivesAt_foldl (.operand hderives) hmany⟩

section Levels

variable {expr : Parser Expr}

theorem derivesAt_foldr {reads read : List Lexeme} {ops : List (UnaryOp × Span)} {e : Expr}
    (hops : Many (ReadsToken prefixToken) reads ops) (h : DerivesAt .unary read e) :
    DerivesAt .unary (reads ++ read)
      (ops.foldr (fun (op, span) operand => .unary op operand (span.join operand.span)) e) := by
  induction hops with
  | nil => exact h
  | cons hop _ ih =>
      obtain ⟨before, rfl, haccept, hspan⟩ := hop
      simp only [List.foldr_cons, hspan]
      exact .unary haccept ih

theorem sound_unary (h : (atom expr).Sound (DerivesAt .atom)) :
    (unary expr).Sound (DerivesAt .unary) := by
  intro cursor e after hyields
  obtain ⟨ops, middle, hops, hrest⟩ := yields_bind hyields
  obtain ⟨operand, last, hoperand, hpure⟩ := yields_bind hrest
  obtain ⟨rfl, rfl⟩ := yields_pure hpure
  obtain ⟨reads, hreads, hmany⟩ := (sound_select prefixToken).many hops
  obtain ⟨read, hread, hderives⟩ := h hoperand
  exact ⟨reads ++ read, hreads.append hread, derivesAt_foldr hmany (.operand hderives)⟩

theorem sound_comparison (h : (sum expr).Sound (DerivesAt .sum)) :
    (comparison expr).Sound (DerivesAt .comparison) := by
  intro cursor e after hyields
  obtain ⟨left, middle, hleft, hrest⟩ := yields_bind hyields
  obtain ⟨right?, last, hright?, hpure⟩ := yields_bind hrest
  obtain ⟨read, hread, hfirst⟩ := h hleft
  rcases yields_optional hright? with ⟨rfl, rfl⟩ | ⟨⟨op, right⟩, rfl, hpair⟩
  · obtain ⟨rfl, rfl⟩ := yields_pure hpure
    exact ⟨read, hread, .operand hfirst⟩
  · obtain ⟨rfl, rfl⟩ := yields_pure hpure
    obtain ⟨found, between, hop, hrest⟩ := yields_bind hpair
    obtain ⟨second, stop, hsecond, hpure⟩ := yields_bind hrest
    obtain ⟨heq, rfl⟩ := yields_pure hpure
    cases heq
    obtain ⟨_, hreadOp, lexeme, rfl, haccept⟩ := sound_operator comparisonToken hop
    obtain ⟨reads, hreads, hright⟩ := h hsecond
    exact ⟨read ++ lexeme :: reads, hread.append (hreadOp.append hreads),
      .comparison haccept hfirst hright⟩

theorem sound_literal : literal.Sound (DerivesAt .atom) := by
  apply Sound.labelled
  intro cursor e after hyields
  obtain ⟨⟨value, span⟩, middle, hselect, hpure⟩ := yields_bind hyields
  obtain ⟨rfl, rfl⟩ := yields_pure hpure
  obtain ⟨_, hreads, lexeme, rfl, haccept, hspan⟩ := sound_select literalToken hselect
  refine ⟨[lexeme], hreads, ?_⟩
  rw [show span = lexeme.span from hspan]
  exact .literal haccept

theorem sound_name : name.Sound (ReadsToken identToken) :=
  (sound_select identToken).labelled .identifier

theorem sound_variableName : variableName.Sound (DerivesAt .atom) := by
  intro cursor e after hyields
  obtain ⟨⟨name, span⟩, middle, hname, hpure⟩ := yields_bind hyields
  obtain ⟨rfl, rfl⟩ := yields_pure hpure
  obtain ⟨_, hreads, lexeme, rfl, haccept, hspan⟩ := sound_name hname
  refine ⟨[lexeme], hreads, ?_⟩
  rw [show span = lexeme.span from hspan]
  exact .ident (identToken_eq_some_iff.mp haccept)

theorem derives_arguments {reads : List Lexeme} {args : List Expr}
    (h : Separated (DerivesAt .disjunction) .comma reads args) : Derives reads (.arguments args) := by
  induction h with
  | last h => exact .argument h
  | more h hcomma _ ih => exact .moreArguments h hcomma ih

theorem derives_argumentList {reads : List Lexeme} {args : List Expr}
    (h : Listed (DerivesAt .disjunction) .comma reads args) : Derives reads (.argumentList args) := by
  cases h with
  | none => exact .noArguments
  | some h => exact .someArguments (derives_arguments h)
  | trailing h hcomma => exact .lastComma (derives_arguments h) hcomma

section

variable (h : expr.Sound (DerivesAt .disjunction))

include h

theorem sound_arguments : (arguments expr).Sound fun reads args =>
    ∃ opened read closed, reads = opened :: (read ++ [closed]) ∧ opened.token = .lparen ∧
      Derives read (.argumentList args) ∧ closed.token = .rparen :=
  ((h.separatedOrNone .comma).imp fun _ _ => derives_argumentList).bracketed .lparen .rparen

theorem sound_call : (call expr).Sound (DerivesAt .atom) := by
  apply Sound.labelled
  intro cursor e after hyields
  obtain ⟨⟨⟨⟨callee, calleeSpan⟩, args⟩, span⟩, middle, hspanned, hpure⟩ := yields_bind hyields
  obtain ⟨rfl, rfl⟩ := yields_pure hpure
  obtain ⟨hspan, hyields⟩ := yields_spanned hspanned
  obtain ⟨found, first, hname, hrest⟩ := yields_bind hyields
  obtain ⟨args', second, hargs, hpure⟩ := yields_bind hrest
  obtain ⟨heq, rfl⟩ := yields_pure hpure
  cases heq
  obtain ⟨_, hreadName, lexeme, rfl, haccept, hcalleeSpan⟩ := sound_name hname
  obtain ⟨_, hreadArgs, opened, read, closed, rfl, hopened, hderives, hclosed⟩ :=
    sound_arguments h hargs
  have hreads := hreadName.append hreadArgs
  refine ⟨_, hreads, ?_⟩
  rw [hspan, hreads.stretch (List.cons_ne_nil _ _), show calleeSpan = lexeme.span from hcalleeSpan]
  exact .call (identToken_eq_some_iff.mp haccept) hopened hderives hclosed

theorem sound_conditional : (conditional expr).Sound (DerivesAt .atom) := by
  apply Sound.labelled
  intro cursor e after hyields
  obtain ⟨⟨⟨condition, thenBranch, elseBranch⟩, span⟩, middle, hspanned, hpure⟩ :=
    yields_bind hyields
  obtain ⟨rfl, rfl⟩ := yields_pure hpure
  obtain ⟨hspan, hyields⟩ := yields_spanned hspanned
  obtain ⟨_, c1, hkwIf, hrest⟩ := yields_bind hyields
  obtain ⟨_, c2, hcondition, hrest⟩ := yields_bind hrest
  obtain ⟨_, c3, hkwThen, hrest⟩ := yields_bind hrest
  obtain ⟨_, c4, hthenBranch, hrest⟩ := yields_bind hrest
  obtain ⟨_, c5, hkwElse, hrest⟩ := yields_bind hrest
  obtain ⟨_, c6, helseBranch, hpure⟩ := yields_bind hrest
  obtain ⟨heq, rfl⟩ := yields_pure hpure
  cases heq
  obtain ⟨kwIf, hif, -, hreadIf⟩ := yields_token hkwIf
  obtain ⟨r1, hread1, hderives1⟩ := h hcondition
  obtain ⟨kwThen, hthen, -, hreadThen⟩ := yields_token hkwThen
  obtain ⟨r2, hread2, hderives2⟩ := h hthenBranch
  obtain ⟨kwElse, helse, -, hreadElse⟩ := yields_token hkwElse
  obtain ⟨r3, hread3, hderives3⟩ := h helseBranch
  have hreads := hreadIf.append (hread1.append (hreadThen.append (hread2.append
    (hreadElse.append hread3))))
  refine ⟨_, hreads, ?_⟩
  rw [hspan, hreads.stretch (List.cons_ne_nil _ _)]
  exact .conditional hif hderives1 hthen hderives2 helse hderives3

theorem sound_parenthesised : (parenthesised expr).Sound (DerivesAt .atom) := by
  apply (h.bracketed .lparen .rparen).imp
  rintro _ e ⟨opened, read, closed, rfl, hopened, hderives, hclosed⟩
  exact .parenthesised hopened hderives hclosed

theorem sound_atom : (atom expr).Sound (DerivesAt .atom) :=
  sound_literal.orElse <| (sound_call h).orElse <| sound_variableName.orElse <|
    (sound_conditional h).orElse (sound_parenthesised h)

theorem sound_product : (product expr).Sound (DerivesAt .product) :=
  sound_chain (sound_unary (sound_atom h)) (sound_operator productToken)

theorem sound_sum : (sum expr).Sound (DerivesAt .sum) :=
  sound_chain (sound_product h) (sound_operator sumToken)

theorem sound_conjunction : (conjunction expr).Sound (DerivesAt .conjunction) :=
  sound_chain (sound_comparison (sound_sum h)) (sound_fixed rfl)

theorem sound_disjunction : (disjunction expr).Sound (DerivesAt .disjunction) :=
  sound_chain (sound_conjunction h) (sound_fixed rfl)

end

end Levels

theorem sound_exprUpTo (depth : Nat) : (exprUpTo depth).Sound (DerivesAt .disjunction) := by
  induction depth with
  | zero =>
      rintro cursor e after ⟨pending, hrun⟩
      cases hrun
  | succ depth ih => exact (sound_disjunction ih).labelled .expression

/-- What is read as an expression derives from the grammar. -/
theorem sound_expr : expr.Sound (DerivesAt .disjunction) := by
  rintro cursor e after ⟨pending, hrun⟩
  exact sound_exprUpTo (cursor.rest.length + 1) ⟨pending, hrun⟩

end Parser

end ExprVet.Calc
