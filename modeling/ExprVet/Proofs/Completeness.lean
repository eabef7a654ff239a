import ExprVet.Proofs.Levels
import ExprVet.Proofs.Scanning

/-!
# What is read from left to right is accepted

Each level of the parser takes some tokens as an operand or an expression and leaves tokens from
which reading can go on. It leaves no operator that it could have taken, so an expression leaves
nothing but a comparison, and only where an expression around it can still take one.
-/

namespace ExprVet.Calc

/-- The tokens begin with no operator of a level. -/
def Leaves (level : Level) (tokens : List Token) : Prop :=
  ∀ token ∈ tokens.head?, level.operator token = none

theorem operator_eq_none_of_comparisonToken {token : Token} {op : BinaryOp}
    (h : Parser.comparisonToken token = some op) (level : Level) : level.operator token = none := by
  cases token <;> first | (cases h; done) | (cases level <;> rfl)

theorem comparisonToken_eq_none_of_operator {level : Level} {token : Token} {op : BinaryOp}
    (h : level.operator token = some op) : Parser.comparisonToken token = none := by
  apply Option.eq_none_iff_forall_ne_some.mpr
  intro found hfound
  rw [operator_eq_none_of_comparisonToken hfound level] at h
  cases h

theorem eq_sum_or_product {level : Level} {token : Token} {op : BinaryOp}
    (hlevel : level.isLoose = false) (h : level.operator token = some op) :
    level = .sum ∨ level = .product := by
  cases level with
  | sum => exact .inl rfl
  | product => exact .inr rfl
  | disjunction | conjunction | comparison => cases hlevel
  | unary | atom => cases h

theorem isLoose_unique {level level' : Level} {token : Token} {op op' : BinaryOp}
    (h : level.operator token = some op) (h' : level'.operator token = some op') :
    level.isLoose = level'.isLoose := by
  cases level <;> cases token <;> first
    | (cases h; done)
    | (cases level' <;> first | rfl | cases h')

/-- After an operand an operator goes on with another one. -/
theorem Scans.operand_of_operator {level : Level} {token : Token} {op : BinaryOp}
    {outer spare : Nat} {rest : List Token} (h : Scans (.after outer spare) (token :: rest))
    (hop : level.operator token = some op) :
    Scans (.operand outer (bif level.isLoose then outer + 1 else spare)) rest := by
  cases h with
  | tight hlevel hop' h =>
      rw [isLoose_unique hop hop', hlevel]
      exact h
  | logical hlevel hop' h =>
      rw [isLoose_unique hop hop', hlevel]
      exact h
  | compare hop' _ =>
      rw [operator_eq_none_of_comparisonToken hop' level] at hop
      cases hop

/-- Where an expression has taken all operators that it can, a comparison for an expression around
it may follow. -/
theorem Scans.of_leaves {outer spare : Nat} {tokens : List Token}
    (h : Scans (.after outer spare) tokens) (hleaves : ∀ level, Leaves level tokens) :
    tokens = [] ∨ ∃ between rest op more, tokens = between :: rest ∧
      Parser.comparisonToken between = some op ∧ spare = more + 1 ∧
      Scans (.operand more more) rest := by
  cases h with
  | stop => exact .inl rfl
  | @compare _ more between op rest hop h => exact .inr ⟨between, rest, op, more, rfl, hop, rfl, h⟩
  | @tight _ _ level _ _ _ _ hop _ | @logical _ _ level _ _ _ _ hop _ =>
      rw [hleaves level _ rfl] at hop
      cases hop

theorem Scans.after_of_leaves {outer spare : Nat} {tokens : List Token}
    (h : Scans (.after outer spare) tokens) (hleaves : ∀ level, Leaves level tokens)
    (outer' : Nat) : Scans (.after outer' spare) tokens := by
  rcases h.of_leaves hleaves with rfl | ⟨between, rest, op, more, rfl, hop, rfl, hrest⟩
  · exact .stop
  · exact .compare hop hrest

theorem Scans.eq_nil_of_leaves {outer : Nat} {tokens : List Token}
    (h : Scans (.after outer 0) tokens) (hleaves : ∀ level, Leaves level tokens) : tokens = [] := by
  rcases h.of_leaves hleaves with h | ⟨_, _, _, _, _, _, hspare, _⟩
  · exact h
  · cases hspare

theorem Scans.head_ne_lparen {outer spare : Nat} {tokens : List Token}
    (h : Scans (.after outer spare) tokens) : tokens.head? ≠ some .lparen := by
  have hoperator (level : Level) : level.operator .lparen = none := by
    cases level <;> rfl
  cases h with
  | stop => exact nofun
  | @tight _ _ level _ _ _ _ hop _ | @logical _ _ level _ _ _ _ hop _ =>
      rintro ⟨⟩
      rw [hoperator level] at hop
      cases hop
  | compare hop _ =>
      rintro ⟨⟩
      cases hop

theorem Scans.exists_head_of_primary {tokens : List Token} (h : Scans .primary tokens) :
    ∃ first rest, tokens = first :: rest ∧ Parser.prefixToken first = none := by
  cases h with
  | @literal token value h =>
      refine ⟨token, [], rfl, ?_⟩
      cases token <;> first | rfl | cases h
  | ident | call _ | parenthesised _ => exact ⟨_, _, rfl, rfl⟩

/-- An operand has tokens. -/
theorem Scans.ne_nil {outer spare : Nat} {tokens : List Token}
    (h : Scans (.operand outer spare) tokens) : tokens ≠ [] := by
  cases h with
  | sign _ _ | branch _ _ _ => exact List.cons_ne_nil _ _
  | primary hread _ =>
      obtain ⟨first, rest, rfl, -⟩ := hread.exists_head_of_primary
      exact List.cons_ne_nil _ _

namespace Parser

/-- From few enough tokens of a kind, with something behind them that does not continue an
expression, the parser takes at least one and leaves tokens of another kind. -/
def Takes (p : Parser Expr) (limit : Nat) (Before After : List Token → Prop) : Prop :=
  ∀ read, Before (read.map (·.token)) → read.length ≤ limit → ∀ stop closing,
    Closes (firstToken? closing) →
      ∃ e stop' left, p.Gives ⟨stop, read ++ closing⟩ (some (e, ⟨stop', left ++ closing⟩)) ∧
        left.length < read.length ∧ After (left.map (·.token))

theorem firstToken?_append {read closing : List Lexeme} {P : Token → Prop}
    (hread : ∀ token ∈ (read.map (·.token)).head?, P token)
    (hclosing : ∀ token ∈ firstToken? closing, P token) :
    ∀ token ∈ firstToken? (read ++ closing), P token := by
  cases read with
  | nil => exact hclosing
  | cons lexeme read => exact hread

section Chain

variable {operand : Parser Expr} {op : Parser BinaryOp} {level : Level} {limit : Nat}
  {Before After : List Token → Prop}

/-- Operators and operands are added until no operator of the level is left. -/
theorem ChainGives.exists_leaves (hop : Operates op level.operator)
    (hoperand : operand.Takes limit Before After)
    (hstep : ∀ token value rest, level.operator token = some value → After (token :: rest) →
      Before rest)
    {cursor : Cursor} {e : Expr} {stop : Nat} {left closing : List Lexeme}
    (hclosing : Closes (firstToken? closing)) (hlimit : left.length ≤ limit)
    (h : ChainGives operand op cursor e ⟨stop, left ++ closing⟩)
    (hafter : After (left.map (·.token))) :
    ∃ e' stop' left', ChainGives operand op cursor e' ⟨stop', left' ++ closing⟩ ∧
      left'.length ≤ left.length ∧ After (left'.map (·.token)) ∧
      Leaves level (left'.map (·.token)) := by
  -- each operand takes a token at least, so fewer are left
  induction hlength : left.length using Nat.strong_induction_on generalizing e stop left with
  | _ n ih =>
    by_cases hleaves : Leaves level (left.map (·.token))
    · exact ⟨e, stop, left, h, Nat.le_of_eq hlength, hafter, hleaves⟩
    · cases left with
      | nil => exact absurd (fun token htoken => nomatch htoken) hleaves
      | cons between rest =>
          obtain ⟨value, hvalue⟩ : ∃ value, level.operator between.token = some value := by
            apply Option.ne_none_iff_exists'.mp
            intro hnone
            exact hleaves fun token htoken => by cases htoken; exact hnone
          rw [List.length_cons] at hlimit hlength
          obtain ⟨right, stop', left', hright, hlt, hafter'⟩ :=
            hoperand rest (hstep _ _ _ hvalue hafter) (by omega) between.span.stop closing hclosing
          have hshorter : (left' ++ closing).length ≤ (rest ++ closing).length := by
            simp only [List.length_append]
            omega
          have hmore := h.step hop hvalue hright hshorter
          obtain ⟨e'', stop'', left'', hchain, hle, hend⟩ :=
            ih left'.length (by omega) (by omega) hmore hafter' rfl
          exact ⟨e'', stop'', left'', hchain, by omega, hend⟩

theorem takes_chain (hop : Operates op level.operator) (hoperand : operand.Takes limit Before After)
    (hstep : ∀ token value rest, level.operator token = some value → After (token :: rest) →
      Before rest) :
    (chain operand op).Takes limit Before fun left => After left ∧ Leaves level left := by
  intro read hread hlimit stop closing hclosing
  obtain ⟨first, stop1, left1, hfirst, hlt, hafter⟩ :=
    hoperand read hread hlimit stop closing hclosing
  obtain ⟨e, stop2, left2, hchain, hle, hafter2, hleaves⟩ :=
    (ChainGives.of_operand hfirst).exists_leaves hop hoperand hstep hclosing (by omega) hafter
  have hend := firstToken?_append hleaves (hclosing.operator level)
  exact ⟨e, stop2, left2, hchain.gives hop hend, by omega, hafter2, hleaves⟩

end Chain

section Levels

variable {expr : Parser Expr} {limit : Nat}

/-- Expressions are taken as far as they go, and none where a parenthesis closes. -/
structure TakesExpr (expr : Parser Expr) (limit : Nat) : Prop where
  takes : ∀ outer, expr.Takes limit (Scans (.operand outer (outer + 1)))
    fun left => Scans (.after outer outer) left ∧ ∀ level, Leaves level left
  none_of_rparen : ∀ cursor : Cursor, firstToken? cursor.rest = some .rparen →
    expr.Gives cursor none

/-- Nothing can follow an expression that no other one is around. -/
theorem TakesExpr.accepts (h : TakesExpr expr limit) {tokens : List Token}
    (htokens : Scans (.operand 0 1) tokens) (hlimit : tokens.length ≤ limit) :
    expr.Accepts Closes tokens fun _ => True := by
  intro read stop rest hread hrest
  rw [← hread] at htokens hlimit
  rw [List.length_map] at hlimit
  obtain ⟨e, stop', left, hgives, -, hafter, hleaves⟩ :=
    h.takes 0 read htokens hlimit stop rest hrest
  obtain rfl : left = [] := List.map_eq_nil_iff.mp (hafter.eq_nil_of_leaves hleaves)
  exact ⟨e, stop', trivial, hgives⟩

theorem exists_row_of_arguments {tokens : List Token} (h : Scans .arguments tokens) :
    ∃ items : List Unit, Row (fun _ own => Scans (.operand 0 1) own) .comma items tokens := by
  generalize hstage : Stage.arguments = stage at h
  induction h with
  | argument h => exact ⟨[()], .last h⟩
  | moreArguments h _ _ ih =>
      obtain ⟨items, hrow⟩ := ih hstage
      exact ⟨() :: items, .more h hrow⟩
  | _ => cases hstage

/-- Arguments and a last comma are taken up to the closing parenthesis. -/
theorem accepts_argumentList (hexpr : TakesExpr expr limit)
    {tokens : List Token} (h : Scans .argumentList tokens) (hlimit : tokens.length ≤ limit) :
    (separatedOrNone expr (token .comma)).Accepts (· = some .rparen) tokens fun _ => True := by
  have hrow {own : List Token} (h : Scans .arguments own) (hlength : own.length ≤ limit) :
      ∃ items : List Unit, Row (fun _ tokens => expr.Accepts Closes tokens fun _ => True) .comma
        items own := by
    obtain ⟨items, hitems⟩ := exists_row_of_arguments h
    exact ⟨items, hitems.imp fun _ tokens hle htokens =>
      hexpr.accepts htokens (Nat.le_trans hle hlength)⟩
  have hcomma : Closes (some .comma) := closes_of_mem (by simp)
  cases h with
  | noArguments =>
      have hnil : (separatedOrNone expr (token .comma)).Accepts (· = some .rparen) _ _ :=
        accepts_separatedOrNone_nil hexpr.none_of_rparen (token .comma)
      exact hnil.imp (fun _ => id) fun _ _ => trivial
  | someArguments h =>
      obtain ⟨items, hitems⟩ := hrow h hlimit
      have hparen : ∀ next, next = some Token.rparen → Closes next ∧ next ≠ some .comma := by
        rintro _ rfl
        exact ⟨closes_of_mem (by simp), by simp⟩
      exact (accepts_separatedOrNone hitems hcomma).imp hparen fun _ _ => trivial
  | lastComma h =>
      rw [List.length_append] at hlimit
      obtain ⟨items, hitems⟩ := hrow h (Nat.le_of_add_right_le hlimit)
      have hlast : (separatedOrNone expr (token .comma)).Accepts (· = some .rparen) _ _ :=
        accepts_separatedOrNone_last hexpr.none_of_rparen hitems hcomma
      exact hlast.imp (fun _ => id) fun _ _ => trivial

theorem accepts_primary (hexpr : TakesExpr expr limit)
    {tokens : List Token} (h : Scans .primary tokens) (hlimit : tokens.length ≤ limit + 1) :
    (atom expr).Accepts (· ≠ some .lparen) tokens fun _ => True := by
  cases h with
  | literal h => exact (accepts_literal h _).imp (fun _ => id) fun _ _ => trivial
  | ident => exact (accepts_variable _).imp (fun _ => id) fun _ _ => trivial
  | call h =>
      simp only [List.length_cons, List.length_append] at hlimit
      have hargs := accepts_argumentList hexpr h (by omega)
      exact (accepts_call _ hargs _).imp (fun _ => id) fun _ _ => trivial
  | parenthesised h =>
      simp only [List.length_cons, List.length_append] at hlimit
      exact accepts_parenthesised (hexpr.accepts h (by omega)) _

/-- An else branch leaves what an expression around it can go on with. -/
theorem unaryGives_of_branch (hexpr : TakesExpr expr limit) {spare : Nat}
    {read closing : List Lexeme} {inCondition inThen inElse : List Token}
    (hread : read.map (·.token) =
      .kwIf :: (inCondition ++ .kwThen :: (inThen ++ .kwElse :: inElse)))
    (hcondition : Scans (.operand 0 1) inCondition) (hthen : Scans (.operand 0 1) inThen)
    (helse : Scans (.operand spare (spare + 1)) inElse) (hlimit : read.length ≤ limit + 1)
    (hclosing : Closes (firstToken? closing)) (outer stop : Nat) :
    ∃ e stop' left, UnaryGives expr ⟨stop, read ++ closing⟩ e ⟨stop', left ++ closing⟩ ∧
      left.length < read.length ∧ Scans (.after outer spare) (left.map (·.token)) := by
  have hlength := congrArg List.length hread
  simp only [List.length_map, List.length_cons, List.length_append] at hlength
  obtain ⟨start, readElse, rfl, hshorter, hconditional⟩ := exists_gives_conditional
    (hexpr.accepts hcondition (by omega)) (hexpr.accepts hthen (by omega)) hread
  obtain ⟨elseBranch, stop', left, hgives, hlt, hafter, hleaves⟩ :=
    hexpr.takes spare readElse helse (by omega) start closing hclosing
  obtain ⟨condition, thenBranch, span, -, -, hatom⟩ :=
    hconditional stop closing elseBranch _ hgives
  refine ⟨_, stop', left, UnaryGives.of_atom hatom ?_, by omega,
    hafter.after_of_leaves hleaves outer⟩
  rw [firstToken?_of_map hread]
  rintro _ ⟨⟩
  rfl

theorem unaryGives_of_primary (hexpr : TakesExpr expr limit) {read left closing : List Lexeme}
    {outer spare : Nat} (hread : Scans .primary (read.map (·.token)))
    (hlimit : read.length ≤ limit + 1) (hleft : Scans (.after outer spare) (left.map (·.token)))
    (hclosing : Closes (firstToken? closing)) (stop : Nat) :
    ∃ e stop', UnaryGives expr ⟨stop, read ++ (left ++ closing)⟩ e ⟨stop', left ++ closing⟩ := by
  have hfollow : firstToken? (left ++ closing) ≠ some .lparen := by
    intro hlparen
    refine firstToken?_append (P := (· ≠ .lparen)) ?_ ?_ _ hlparen rfl
    · rintro _ hhead rfl
      exact hleft.head_ne_lparen hhead
    · rintro _ hhead rfl
      exact hclosing.lparen hhead
  have hlength : (read.map (·.token)).length ≤ limit + 1 := by
    rw [List.length_map]
    exact hlimit
  obtain ⟨e, stop', -, hatom⟩ :=
    accepts_primary hexpr hread hlength read stop (left ++ closing) rfl hfollow
  obtain ⟨first, rest, htokens, hfirst⟩ := hread.exists_head_of_primary
  refine ⟨e, stop', UnaryGives.of_atom hatom ?_⟩
  rw [firstToken?_of_map htokens]
  rintro _ ⟨⟩
  exact hfirst

theorem exists_unaryGives (hexpr : TakesExpr expr limit) {outer spare : Nat}
    {read closing : List Lexeme} (hread : Scans (.operand outer spare) (read.map (·.token)))
    (hlimit : read.length ≤ limit + 1) (hclosing : Closes (firstToken? closing)) (stop : Nat) :
    ∃ e stop' left, UnaryGives expr ⟨stop, read ++ closing⟩ e ⟨stop', left ++ closing⟩ ∧
      left.length < read.length ∧ Scans (.after outer spare) (left.map (·.token)) := by
  generalize htokens : read.map (·.token) = tokens at hread
  generalize hstage : Stage.operand outer spare = stage at hread
  -- the induction goes through the signs up to the atom behind them
  induction hread generalizing read stop with
  | sign hop _ ih =>
      obtain ⟨before, rest, rfl, rfl, hrest⟩ := List.map_eq_cons_iff.mp htokens
      rw [List.length_cons] at hlimit
      obtain ⟨e, stop', left, hgives, hlt, hafter⟩ := ih (by omega) before.span.stop hrest hstage
      exact ⟨_, stop', left, hgives.cons hop stop, Nat.lt_succ_of_lt hlt, hafter⟩
  | branch hcondition hthen helse =>
      cases hstage
      exact unaryGives_of_branch hexpr htokens hcondition hthen helse hlimit hclosing outer stop
  | primary hprimary hafter =>
      cases hstage
      obtain ⟨own, left, rfl, rfl, rfl⟩ := List.map_eq_append_iff.mp htokens
      obtain ⟨first, rest, hown, -⟩ := hprimary.exists_head_of_primary
      have hpos := congrArg List.length hown
      rw [List.length_map, List.length_cons] at hpos
      rw [List.length_append] at hlimit ⊢
      obtain ⟨e, stop', hgives⟩ :=
        unaryGives_of_primary hexpr hprimary (by omega) hafter hclosing stop
      rw [List.append_assoc]
      exact ⟨e, stop', left, hgives, by omega, hafter⟩
  | _ => cases hstage

section

variable (hexpr : TakesExpr expr limit)

include hexpr

theorem takes_unary (outer spare : Nat) : (unary expr).Takes (limit + 1)
    (Scans (.operand outer spare)) (Scans (.after outer spare)) := by
  intro read hread hlimit stop closing hclosing
  obtain ⟨e, stop', left, hgives, hlt, hafter⟩ :=
    exists_unaryGives hexpr hread hlimit hclosing stop
  exact ⟨e, stop', left, hgives.gives, hlt, hafter⟩

theorem takes_sum (outer spare : Nat) : (sum expr).Takes (limit + 1) (Scans (.operand outer spare))
    fun left => (Scans (.after outer spare) left ∧ Leaves .product left) ∧ Leaves .sum left := by
  have hproduct : (product expr).Takes (limit + 1) (Scans (.operand outer spare))
      fun left => Scans (.after outer spare) left ∧ Leaves .product left := by
    apply takes_chain (operates_operator productToken) (takes_unary hexpr outer spare)
    intro token value rest hop hafter
    exact hafter.operand_of_operator hop
  apply takes_chain (operates_operator sumToken) hproduct
  intro token value rest hop hafter
  exact hafter.1.operand_of_operator hop

/-- A comparison takes no second one. -/
theorem takes_comparison (outer : Nat) :
    (comparison expr).Takes (limit + 1) (Scans (.operand outer (outer + 1)))
      fun left => (Scans (.after outer outer) left ∧ Leaves .product left) ∧ Leaves .sum left := by
  intro read hread hlimit stop closing hclosing
  obtain ⟨e, stop1, left, hgives, hlt, ⟨hafter, hproduct⟩, hsum⟩ :=
    takes_sum hexpr outer (outer + 1) read hread hlimit stop closing hclosing
  generalize htokens : left.map (·.token) = tokens at hafter
  -- without a comparison it is what its operand is
  have halone (hnone : ∀ token ∈ tokens.head?, comparisonToken token = none) :
      (comparison expr).Gives ⟨stop, read ++ closing⟩ (some (e, ⟨stop1, left ++ closing⟩)) := by
    rw [← htokens] at hnone
    exact gives_comparison_alone hgives (firstToken?_append hnone hclosing.comparison)
  cases hafter with
  | stop =>
      refine ⟨e, stop1, left, halone nofun, hlt, ⟨?_, hproduct⟩, hsum⟩
      rw [htokens]
      exact .stop
  | tight hlevel hop _ =>
      rw [htokens] at hproduct hsum
      rcases eq_sum_or_product hlevel hop with rfl | rfl
      · rw [hsum _ rfl] at hop
        cases hop
      · rw [hproduct _ rfl] at hop
        cases hop
  | compare hop hrest =>
      obtain ⟨between, right, rfl, rfl, hright⟩ := List.map_eq_cons_iff.mp htokens
      rw [← hright] at hrest
      rw [List.length_cons] at hlt
      obtain ⟨e', stop2, left', hgives', hlt', hafter'⟩ := takes_sum hexpr outer outer right
        hrest (by omega) between.span.stop closing hclosing
      exact ⟨_, stop2, left', gives_comparison hgives hop hgives', by omega, hafter'⟩
  | logical hlevel hop hrest =>
      refine ⟨e, stop1, left, halone ?_, hlt, ⟨?_, hproduct⟩, hsum⟩
      · rintro _ ⟨⟩
        exact comparisonToken_eq_none_of_operator hop
      · rw [htokens]
        exact .logical hlevel hop hrest

theorem takes_disjunction (outer : Nat) :
    (disjunction expr).Takes (limit + 1) (Scans (.operand outer (outer + 1)))
      fun left => Scans (.after outer outer) left ∧ ∀ level, Leaves level left := by
  have hconjunction := takes_chain operates_and (takes_comparison hexpr outer)
    fun token value rest hop hafter => hafter.1.1.operand_of_operator hop
  have hdisjunction := takes_chain operates_or hconjunction
    fun token value rest hop hafter => hafter.1.1.1.operand_of_operator hop
  intro read hread hlimit stop closing hclosing
  obtain ⟨e, stop', left, hgives, hlt, ⟨⟨⟨hafter, hproduct⟩, hsum⟩, hand⟩, hor⟩ :=
    hdisjunction read hread hlimit stop closing hclosing
  refine ⟨e, stop', left, hgives, hlt, hafter, ?_⟩
  intro level
  cases level with
  | disjunction => exact hor
  | conjunction => exact hand
  | sum => exact hsum
  | product => exact hproduct
  | comparison | unary | atom => exact fun _ _ => rfl

end

end Levels

theorem takes_exprUpTo (depth : Nat) : TakesExpr (exprUpTo depth) depth := by
  induction depth with
  | zero =>
      refine ⟨?_, fun cursor hparen => gives_exprUpTo_none hparen 0⟩
      intro outer read hread hlimit
      rw [List.length_eq_zero_iff.mp (Nat.le_zero.mp hlimit)] at hread
      cases hread.ne_nil rfl
  | succ depth ih =>
      refine ⟨?_, fun cursor hparen => gives_exprUpTo_none hparen (depth + 1)⟩
      intro outer read hread hlimit stop closing hclosing
      obtain ⟨e, stop', left, hgives, hend⟩ :=
        takes_disjunction ih outer read hread hlimit stop closing hclosing
      exact ⟨e, stop', left, hgives.labelled .expression, hend⟩

/-- Tokens that are read as operands and operators are accepted as an expression. -/
theorem accepts_expr {tokens : List Token} (h : Scans (.operand 0 1) tokens) :
    expr.Accepts Closes tokens fun _ => True :=
  accepts_expr_of_exprUpTo fun depth hdepth => (takes_exprUpTo depth).accepts h hdepth

end Parser

/-- The grammar derives exactly what can be read from left to right. -/
theorem exists_derives_iff_scans {read : List Lexeme} :
    (∃ e, DerivesAt .disjunction read e) ↔ Scans (.operand 0 1) (read.map (·.token)) := by
  constructor
  · rintro ⟨e, h⟩
    exact h.scans
  · intro h
    have hend : Closes (firstToken? []) := ⟨fun _ => nofun, nofun, nofun⟩
    obtain ⟨e, stop, -, hgives⟩ := Parser.accepts_expr h read 0 [] rfl hend
    obtain ⟨read', hreads, hderives⟩ := Parser.sound_expr ⟨none, hgives none⟩
    obtain rfl : read = read' := by simpa using hreads.rest
    exact ⟨e, hderives⟩

end ExprVet.Calc
