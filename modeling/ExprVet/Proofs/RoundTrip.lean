import ExprVet.Proofs.Acceptance
import ExprVet.Proofs.Printing

/-!
# Parsing undoes printing

The tokens of a written expression are read back as the expression, up to its places. An expression
is given partly by its level: operators of the level may still follow it, or signs stand in front of
it. Where none follows, the level gives it as a whole and a looser level has it for an operand.
-/

namespace ExprVet.Calc

mutual

/-- The expression with all its places forgotten. -/
def Expr.bare : Expr → Expr
  | .literal value _ => .literal value ⟨0, 0⟩
  | .ident name _ => .ident name ⟨0, 0⟩
  | .unary op operand _ => .unary op operand.bare ⟨0, 0⟩
  | .binary op left right _ => .binary op left.bare right.bare ⟨0, 0⟩
  | .conditional condition thenBranch elseBranch _ =>
      .conditional condition.bare thenBranch.bare elseBranch.bare ⟨0, 0⟩
  | .call callee _ args _ => .call callee ⟨0, 0⟩ (Expr.bareArgs args) ⟨0, 0⟩

def Expr.bareArgs : List Expr → List Expr
  | [] => []
  | arg :: args => arg.bare :: Expr.bareArgs args

end

theorem bareArgs_of_forall₂ {args values : List Expr}
    (h : List.Forall₂ (fun (arg value : Expr) => value.bare = arg.bare) args values) :
    Expr.bareArgs values = Expr.bareArgs args := by
  induction h with
  | nil => rfl
  | cons hvalue _ ih => rw [Expr.bareArgs, Expr.bareArgs, hvalue, ih]

namespace Level

/-- The loosest level whose operators could not follow what is partly given. -/
def inner : Level → Level
  | disjunction => conjunction
  | conjunction => comparison
  | sum => product
  | product => unary
  | level => level

theorem rank_inj {level level' : Level} (h : level.rank = level'.rank) : level = level' := by
  cases level <;> cases level' <;> first | rfl | cases h

theorem rank_operand {level level' : Level} (h : level.rank < level'.rank) :
    level.operand.rank = level.rank + 1 := by
  cases level with
  | atom => cases level' <;> exact absurd h (by decide)
  | _ => rfl

theorem rank_le_atom (level : Level) : level.rank ≤ atom.rank := by
  cases level <;> decide

theorem rank_inner_le (level : Level) : level.inner.rank ≤ level.operand.rank := by
  cases level <;> decide

theorem rank_le_inner (level : Level) : level.rank ≤ level.inner.rank := by
  cases level <;> decide

end Level

/-- No operator of a level or of a tighter one, and no parenthesis, which would make a call. -/
structure Follows (level : Level) (next : Option Token) : Prop where
  operator : ∀ tighter : Level, level.rank ≤ tighter.rank → ∀ token ∈ next,
    tighter.operator token = none
  comparison : level.rank ≤ Level.comparison.rank → ∀ token ∈ next,
    Parser.comparisonToken token = none
  lparen : next ≠ some .lparen

theorem Follows.mono {level level' : Level} {next : Option Token} (h : Follows level next)
    (hle : level.rank ≤ level'.rank) : Follows level' next :=
  ⟨fun tighter htighter => h.operator tighter (Nat.le_trans hle htighter),
    fun hcomparison => h.comparison (Nat.le_trans hle hcomparison), h.lparen⟩

theorem Closes.follows {next : Option Token} (h : Closes next) (level : Level) :
    Follows level next :=
  ⟨fun tighter _ => h.operator tighter, fun _ => h.comparison, h.lparen⟩

namespace Parser

/-- The parser of a level. -/
def atLevel (expr : Parser Expr) : Level → Parser Expr
  | .disjunction => disjunction expr
  | .conjunction => conjunction expr
  | .comparison => comparison expr
  | .sum => sum expr
  | .product => product expr
  | .unary => unary expr
  | .atom => atom expr

/-- An expression has been given as far as it goes, though not yet by the parser of the level:
more of its operators, or signs in front, may be added. -/
def Partly (expr : Parser Expr) (level : Level) (cursor : Cursor) (e : Expr) (after : Cursor) :
    Prop :=
  match level with
  | .disjunction =>
      ChainGives (conjunction expr) (do let _ ← token .or; return .or) cursor e after
  | .conjunction =>
      ChainGives (comparison expr) (do let _ ← token .and; return .and) cursor e after
  | .comparison => (comparison expr).Gives cursor (some (e, after))
  | .sum => ChainGives (product expr) (operator sumToken) cursor e after
  | .product => ChainGives (unary expr) (operator productToken) cursor e after
  | .unary => UnaryGives expr cursor e after
  | .atom =>
      (atom expr).Gives cursor (some (e, after)) ∧
        ∀ token ∈ firstToken? cursor.rest, prefixToken token = none

section Partly

variable {expr : Parser Expr} {level : Level} {cursor after : Cursor} {e : Expr}

theorem Partly.gives (h : Partly expr level cursor e after)
    (hend : Follows level (firstToken? after.rest)) :
    (atLevel expr level).Gives cursor (some (e, after)) := by
  have hoperator := hend.operator level (Nat.le_refl _)
  cases level with
  | disjunction => exact ChainGives.gives h operates_or hoperator
  | conjunction => exact ChainGives.gives h operates_and hoperator
  | comparison => exact h
  | sum => exact ChainGives.gives h (operates_operator sumToken) hoperator
  | product => exact ChainGives.gives h (operates_operator productToken) hoperator
  | unary => exact UnaryGives.gives h
  | atom => exact h.1

/-- An operand of a level is an expression of the level. -/
theorem Partly.of_operand (h : Partly expr level.operand cursor e after)
    (hend : Follows level.inner (firstToken? after.rest)) : Partly expr level cursor e after := by
  have hgives := h.gives (hend.mono (Level.rank_inner_le level))
  cases level with
  | disjunction | conjunction | sum | product => exact ChainGives.of_operand hgives
  | comparison => exact gives_comparison_alone hgives (hend.comparison (Nat.le_refl _))
  | unary => exact UnaryGives.of_atom h.1 h.2
  | atom => exact h

theorem Partly.looser {base : Level} (h : Partly expr base cursor e after)
    (hle : level.rank ≤ base.rank) (hend : Follows level.inner (firstToken? after.rest)) :
    Partly expr level cursor e after := by
  induction hdistance : base.rank - level.rank generalizing level with
  | zero =>
      obtain rfl := Level.rank_inj (Nat.le_antisymm hle (Nat.le_of_sub_eq_zero hdistance))
      exact h
  | succ n ih =>
      have hrank := Level.rank_operand (show level.rank < base.rank by omega)
      have hinner : level.inner.rank ≤ level.operand.inner.rank :=
        Nat.le_trans (Level.rank_inner_le level) (Level.rank_le_inner level.operand)
      exact (ih (by omega) (hend.mono hinner) (by omega)).of_operand hend

/-- An operator of the level and its right operand are added. -/
theorem Partly.binary {stop : Nat} {between : Lexeme} {rest : List Lexeme} {right : Expr}
    {op : BinaryOp} (h : Partly expr level cursor e ⟨stop, between :: rest⟩)
    (hop : level.operator between.token = some op)
    (hright : (atLevel expr level.operand).Gives ⟨between.span.stop, rest⟩ (some (right, after)))
    (hle : after.rest.length ≤ rest.length) :
    Partly expr level cursor (.joined op e right) after := by
  cases level with
  | disjunction => exact ChainGives.step h operates_or hop hright hle
  | conjunction => exact ChainGives.step h operates_and hop hright hle
  | sum => exact ChainGives.step h (operates_operator sumToken) hop hright hle
  | product => exact ChainGives.step h (operates_operator productToken) hop hright hle
  | comparison | unary | atom => cases hop

end Partly

/-- Certain tokens are partly given as an expression of a kind, provided that the token after them
is none of a tighter level. -/
def PartlyAccepts (expr : Parser Expr) (level : Level) (tokens : List Token) (P : Expr → Prop) :
    Prop :=
  ∀ read stop rest, read.map (·.token) = tokens → Follows level.inner (firstToken? rest) →
    ∃ e stop', P e ∧ Partly expr level ⟨stop, read ++ rest⟩ e ⟨stop', rest⟩

theorem PartlyAccepts.accepts {expr : Parser Expr} {level : Level} {tokens : List Token}
    {P : Expr → Prop} (h : PartlyAccepts expr level tokens P) :
    (atLevel expr level).Accepts (Follows level) tokens P := by
  intro read stop rest hread hrest
  obtain ⟨e, stop', he, hpartly⟩ := h read stop rest hread (hrest.mono (Level.rank_le_inner level))
  exact ⟨e, stop', he, hpartly.gives hrest⟩

theorem PartlyAccepts.looser {expr : Parser Expr} {base level : Level} {tokens : List Token}
    {P : Expr → Prop} (h : PartlyAccepts expr base tokens P) (hle : level.rank ≤ base.rank) :
    PartlyAccepts expr level tokens P := by
  intro read stop rest hread hrest
  have hinner : Follows base.inner (firstToken? rest) := by
    rcases Nat.eq_or_lt_of_le hle with heq | hlt
    · rw [← Level.rank_inj heq]
      exact hrest
    · have hoperand := Level.rank_operand hlt
      have hinner := Level.rank_inner_le level
      have hbase := Level.rank_le_inner base
      exact hrest.mono (by omega)
  obtain ⟨e, stop', he, hpartly⟩ := h read stop rest hread hinner
  exact ⟨e, stop', he, hpartly.looser hle hrest⟩

/-- What is read as an atom that begins with no sign. -/
theorem partlyAccepts_atom {expr : Parser Expr} {tokens : List Token} {P : Expr → Prop}
    (h : (atom expr).Accepts (Follows .atom) tokens P)
    (hsign : ∃ first rest, tokens = first :: rest ∧ prefixToken first = none) :
    PartlyAccepts expr .atom tokens P := by
  obtain ⟨first, more, rfl, hfirst⟩ := hsign
  intro read stop rest hread hrest
  obtain ⟨e, stop', he, hgives⟩ := h read stop rest hread hrest
  refine ⟨e, stop', he, hgives, ?_⟩
  rw [firstToken?_of_map hread]
  rintro _ ⟨⟩
  exact hfirst

/-- An expression is read back, as an operand of the levels that it fits and as a whole. -/
structure RoundTripsAt (e : Expr) (depth : Nat) : Prop where
  partly : ∀ level, e.fits level = true →
    PartlyAccepts (exprUpTo depth) level e.tokens (·.bare = e.bare)
  whole : (disjunction (exprUpTo depth)).Accepts Closes e.tokens (·.bare = e.bare)

/-- An expression is read back with any sufficient depth. -/
def RoundTrips (e : Expr) : Prop := ∀ depth, e.tokens.length ≤ depth + 1 → RoundTripsAt e depth

/-- What is given at the tightest level that an expression fits is given at all of them. -/
theorem roundTripsAt_of_partlyAccepts {e : Expr} {depth : Nat} {base : Level}
    (h : PartlyAccepts (exprUpTo depth) base e.tokens (·.bare = e.bare))
    (hbase : ∀ level, e.fits level = true → level.rank ≤ base.rank) :
    RoundTripsAt e depth := by
  constructor
  · exact fun level hfits => h.looser (hbase level hfits)
  · have hle : Level.disjunction.rank ≤ base.rank := Nat.zero_le _
    exact (h.looser hle).accepts.imp (fun _ hcloses => hcloses.follows _) fun _ => id

theorem tokens_ne_nil (e : Expr) : e.tokens ≠ [] := by
  cases e <;> simp [Expr.tokens]

theorem RoundTrips.accepts {e : Expr} (h : RoundTrips e) {depth : Nat}
    (hdepth : e.tokens.length ≤ depth) :
    (exprUpTo depth).Accepts Closes e.tokens (·.bare = e.bare) := by
  cases depth with
  | zero => exact absurd (List.length_eq_zero_iff.mp (Nat.le_zero.mp hdepth)) (tokens_ne_nil e)
  | succ depth => exact (h depth hdepth).whole.labelled .expression

/-- An operand is read back in the parentheses that it has. -/
theorem RoundTrips.partlyAccepts {e : Expr} (h : RoundTrips e) (level : Level) (depth : Nat)
    (hdepth : (enclosedTokens (e.fits level) e.tokens).length ≤ depth + 1) :
    PartlyAccepts (exprUpTo depth) level (enclosedTokens (e.fits level) e.tokens)
      (·.bare = e.bare) := by
  cases hfits : e.fits level with
  | true =>
      rw [hfits] at hdepth
      exact (h depth hdepth).partly level hfits
  | false =>
      rw [hfits] at hdepth
      simp only [enclosedTokens, Bool.false_eq_true, if_false, List.length_cons, List.length_append,
        List.length_nil] at hdepth
      have hlength : e.tokens.length ≤ depth := by omega
      have hatom := partlyAccepts_atom (accepts_parenthesised (h.accepts hlength) (Follows .atom))
        ⟨.lparen, _, rfl, rfl⟩
      exact hatom.looser level.rank_le_atom

theorem operator_level_token {op : BinaryOp} (h : op.level ≠ .comparison) :
    op.level.operator op.token = some op ∧ op.leftLevel = op.level := by
  cases op <;> first | exact ⟨rfl, rfl⟩ | exact absurd rfl h

theorem comparisonToken_token {op : BinaryOp} (h : op.level = .comparison) :
    comparisonToken op.token = some op ∧ op.leftLevel = .sum := by
  cases op <;> first | exact ⟨rfl, rfl⟩ | cases h

/-- An operator ends all that is tighter. -/
theorem follows_token (op : BinaryOp) : Follows op.leftLevel.inner (some op.token) := by
  constructor
  · rintro tighter hle _ ⟨⟩
    cases op <;> cases tighter <;> first | rfl | exact absurd hle (by decide)
  · rintro hle _ ⟨⟩
    cases op <;> first | rfl | exact absurd hle (by decide)
  · cases op <;> exact nofun

/-- Comparisons are not operands of one another. -/
theorem follows_comparison {op : BinaryOp} (h : op.level = .comparison) :
    Follows .sum (some op.token) := by
  constructor
  · rintro tighter _ _ ⟨⟩
    cases op <;> first | (cases h; done) | (cases tighter <;> rfl)
  · exact fun hle => absurd hle (by decide)
  · cases op <;> exact nofun

theorem partlyAccepts_binary {op : BinaryOp} {left right : Expr} {depth : Nat} (span : Span)
    (hleft : PartlyAccepts (exprUpTo depth) op.leftLevel
      (enclosedTokens (left.fits op.leftLevel) left.tokens) (·.bare = left.bare))
    (hright : PartlyAccepts (exprUpTo depth) op.level.operand
      (enclosedTokens (right.fits op.level.operand) right.tokens) (·.bare = right.bare)) :
    PartlyAccepts (exprUpTo depth) op.level (Expr.binary op left right span).tokens
      (·.bare = (Expr.binary op left right span).bare) := by
  intro read stop rest hread hrest
  obtain ⟨readLeft, _, rfl, hreadLeft, hread⟩ := List.map_eq_append_iff.mp hread
  obtain ⟨between, readRight, rfl, hbetween, hreadRight⟩ := List.map_eq_cons_iff.mp hread
  have hfollow : Follows op.leftLevel.inner (firstToken? (between :: (readRight ++ rest))) := by
    rw [firstToken?, List.head?_cons, Option.map_some, hbetween]
    exact follows_token op
  obtain ⟨first, stop1, hfirst, hpartly⟩ :=
    hleft readLeft stop (between :: (readRight ++ rest)) hreadLeft hfollow
  have hfollowRight : Follows op.level.operand (firstToken? rest) :=
    hrest.mono (Level.rank_inner_le op.level)
  obtain ⟨second, stop2, hsecond, hgives⟩ :=
    hright.accepts readRight between.span.stop rest hreadRight hfollowRight
  refine ⟨.joined op first second, stop2, ?_, ?_⟩
  · simp only [Expr.joined, Expr.bare, hfirst, hsecond]
  · have hle : rest.length ≤ (readRight ++ rest).length := by
      rw [List.length_append]
      exact Nat.le_add_left _ _
    rw [List.append_assoc]
    -- a comparison takes two operands at once, other operators go on with what is on their left
    by_cases hcomparison : op.level = .comparison
    · obtain ⟨hop, hlevel⟩ := comparisonToken_token hcomparison
      have hfollowSum := follows_comparison hcomparison
      rw [hlevel] at hpartly
      rw [hcomparison] at hgives ⊢
      rw [← hbetween] at hop hfollowSum
      exact gives_comparison (hpartly.gives hfollowSum) hop hgives
    · obtain ⟨hop, hlevel⟩ := operator_level_token hcomparison
      rw [hlevel] at hpartly
      rw [← hbetween] at hop
      exact hpartly.binary hop hgives hle

theorem partlyAccepts_unary {op : UnaryOp} {operand : Expr} {depth : Nat} (span : Span)
    (h : PartlyAccepts (exprUpTo depth) .unary
      (enclosedTokens (operand.fits .unary) operand.tokens) (·.bare = operand.bare)) :
    PartlyAccepts (exprUpTo depth) .unary (Expr.unary op operand span).tokens
      (·.bare = (Expr.unary op operand span).bare) := by
  intro read stop rest hread hrest
  obtain ⟨before, read, rfl, hbefore, hread⟩ := List.map_eq_cons_iff.mp hread
  obtain ⟨e, stop', he, hpartly⟩ := h read before.span.stop rest hread hrest
  have hop : prefixToken before.token = some op := by
    rw [hbefore]
    cases op <;> rfl
  refine ⟨.unary op e (before.span.join e.span), stop', ?_, UnaryGives.cons hpartly hop stop⟩
  simp only [Expr.bare, he]

theorem accepts_call_args {depth : Nat} {args : List Expr} (callee : String)
    (calleeSpan span : Span)
    (hargs : args ≠ [] → Row (fun (arg : Expr) own =>
      (exprUpTo depth).Accepts Closes own (·.bare = arg.bare)) .comma args (Expr.argTokens args)) :
    (atom (exprUpTo depth)).Accepts (Follows .atom) (Expr.call callee calleeSpan args span).tokens
      (·.bare = (Expr.call callee calleeSpan args span).bare) := by
  have hlist : (separatedOrNone (exprUpTo depth) (token .comma)).Accepts (· = some .rparen)
      (Expr.argTokens args) (Expr.bareArgs · = Expr.bareArgs args) := by
    by_cases hne : args = []
    · rw [hne]
      have hnone (cursor : Cursor) (h : firstToken? cursor.rest = some .rparen) :
          (exprUpTo depth).Gives cursor none :=
        gives_exprUpTo_none h depth
      apply (accepts_separatedOrNone_nil hnone (token .comma)).imp (fun _ => id)
      rintro _ rfl
      rfl
    · have hparen : ∀ next, next = some Token.rparen → Closes next ∧ next ≠ some .comma := by
        rintro _ rfl
        exact ⟨closes_of_mem (by simp), by simp⟩
      exact (accepts_separatedOrNone (hargs hne) (closes_of_mem (by simp))).imp hparen
        fun _ => bareArgs_of_forall₂
  apply (accepts_call callee hlist _).imp (fun _ => id)
  rintro _ ⟨_, values, _, hvalues, rfl⟩
  simp only [Expr.bare, hvalues]

/-- A conditional is read back as a whole. -/
theorem roundTripsAt_conditional {condition thenBranch elseBranch : Expr} {depth : Nat}
    (span : Span)
    (hcondition : (exprUpTo depth).Accepts Closes condition.tokens (·.bare = condition.bare))
    (hthen : (exprUpTo depth).Accepts Closes thenBranch.tokens (·.bare = thenBranch.bare))
    (helse : (exprUpTo depth).Accepts Closes elseBranch.tokens (·.bare = elseBranch.bare)) :
    RoundTripsAt (.conditional condition thenBranch elseBranch span) depth := by
  constructor
  · rintro level ⟨⟩
  · intro read stop rest hread hrest
    have hfirst : firstToken? (read ++ rest) = some .kwIf := firstToken?_of_map hread
    obtain ⟨start, readElse, hreadElse, -, hconditional⟩ :=
      exists_gives_conditional hcondition hthen hread
    obtain ⟨e3, stop', he3, hgives⟩ := helse readElse start rest hreadElse hrest
    obtain ⟨e1, e2, place, he1, he2, hatom⟩ := hconditional stop rest e3 _ hgives
    have hpartly : Partly (exprUpTo depth) .atom ⟨stop, read ++ rest⟩
        (.conditional e1 e2 e3 place) ⟨stop', rest⟩ := by
      refine ⟨hatom, ?_⟩
      rw [hfirst]
      rintro _ ⟨⟩
      rfl
    -- its else branch would take an operator, so it is given up to the loosest level at once
    have hdisjunction : Partly (exprUpTo depth) .disjunction _ _ _ :=
      hpartly.looser (Nat.zero_le _) (hrest.follows _)
    refine ⟨_, stop', ?_, hdisjunction.gives (hrest.follows _)⟩
    simp only [Expr.bare, he1, he2, he3]

theorem literalToken_token (value : Literal) : literalToken value.token = some value := by
  cases value with
  | bool value => cases value <;> rfl
  | _ => rfl

mutual

/-- Every expression is read back from its tokens. -/
theorem roundTrips : ∀ e : Expr, RoundTrips e
  | .literal value span => by
      intro depth _
      have hsign : prefixToken value.token = none := by
        cases value with
        | bool value => cases value <;> rfl
        | _ => rfl
      have hliteral : (atom (exprUpTo depth)).Accepts (Follows .atom) [value.token]
          (·.bare = (Expr.literal value span).bare) := by
        apply (accepts_literal (literalToken_token value) _).imp (fun _ => id)
        rintro _ ⟨_, rfl⟩
        rfl
      have hatom := partlyAccepts_atom hliteral ⟨value.token, [], rfl, hsign⟩
      exact roundTripsAt_of_partlyAccepts hatom fun level _ => level.rank_le_atom
  | .ident name span => by
      intro depth _
      have hident : (atom (exprUpTo depth)).Accepts (Follows .atom) [.ident name]
          (·.bare = (Expr.ident name span).bare) := by
        apply (accepts_variable name).imp fun _ hfollow => hfollow.lparen
        rintro _ ⟨_, rfl⟩
        rfl
      have hatom := partlyAccepts_atom hident ⟨.ident name, [], rfl, rfl⟩
      exact roundTripsAt_of_partlyAccepts hatom fun level _ => level.rank_le_atom
  | .unary op operand span => by
      intro depth hdepth
      simp only [Expr.tokens, List.length_cons] at hdepth
      have hoperand := (roundTrips operand).partlyAccepts .unary depth (by omega)
      apply roundTripsAt_of_partlyAccepts (partlyAccepts_unary span hoperand)
      intro level hfits
      exact of_decide_eq_true hfits
  | .binary op left right span => by
      intro depth hdepth
      simp only [Expr.tokens, List.length_cons, List.length_append] at hdepth
      have hleft := (roundTrips left).partlyAccepts op.leftLevel depth (by omega)
      have hright := (roundTrips right).partlyAccepts op.level.operand depth (by omega)
      apply roundTripsAt_of_partlyAccepts (partlyAccepts_binary span hleft hright)
      intro level hfits
      exact of_decide_eq_true hfits
  | .conditional condition thenBranch elseBranch span => by
      intro depth hdepth
      simp only [Expr.tokens, List.length_cons, List.length_append] at hdepth
      exact roundTripsAt_conditional span ((roundTrips condition).accepts (by omega))
        ((roundTrips thenBranch).accepts (by omega)) ((roundTrips elseBranch).accepts (by omega))
  | .call callee calleeSpan args span => by
      intro depth hdepth
      simp only [Expr.tokens, List.length_cons, List.length_append] at hdepth
      have hcall := accepts_call_args callee calleeSpan span fun hne =>
        roundTrips_args args hne (show (Expr.argTokens args).length ≤ depth by omega)
      have hatom := partlyAccepts_atom hcall ⟨.ident callee, _, rfl, rfl⟩
      exact roundTripsAt_of_partlyAccepts hatom fun level _ => level.rank_le_atom

theorem roundTrips_args : ∀ args : List Expr, args ≠ [] → ∀ {depth : Nat},
    (Expr.argTokens args).length ≤ depth →
      Row (fun (arg : Expr) own => (exprUpTo depth).Accepts Closes own (·.bare = arg.bare)) .comma
        args (Expr.argTokens args)
  | [], hne, _, _ => absurd rfl hne
  | [arg], _, _, hdepth => .last ((roundTrips arg).accepts hdepth)
  | arg :: next :: args, _, _, hdepth => by
      simp only [Expr.argTokens, List.length_append, List.length_cons] at hdepth
      exact .more ((roundTrips arg).accepts (by omega))
        (roundTrips_args (next :: args) (List.cons_ne_nil _ _) (by omega))

end

/-- The tokens of an expression are accepted as that expression. -/
theorem accepts_tokens (e : Expr) : expr.Accepts Closes e.tokens (·.bare = e.bare) :=
  accepts_expr_of_exprUpTo fun _ hdepth => (roundTrips e).accepts hdepth

end Parser

/-- A printed expression is read as its tokens. -/
theorem map_token_tokenize_print {e : Expr} (h : e.Printable) :
    (tokenize (String.ofList e.print)).map (·.token) = e.tokens := by
  have hstops : Stops [] := fun c hc => nomatch hc
  obtain ⟨read, htokens, hread⟩ := (Expr.printed e h).lexes [] hstops 0
  rw [tokenize, String.toList_ofList, ← List.append_nil e.print, hread, lexemes_nil,
    List.append_nil, htokens]

/-- An expression that is printed with only the parentheses that it needs, and read behind a header
of well named types, is the body of a lambda up to its places, and nothing is wrong with it. -/
theorem wrapper_print_body {bindings : List Binding} {expected : SemanticType}
    (hbindings : ∀ b ∈ bindings, b.WellNamed) (hexpected : expected.WellNamed) {e : Expr}
    (h : e.Printable) :
    ∃ tree lambda, Tree.wrapper? (synthesize bindings expected (String.ofList e.print)) =
        some tree ∧ tree.syntaxErrors = [] ∧ tree.lambda = some lambda ∧
      lambda.body.bare = e.bare := by
  obtain ⟨tree, hwrapper, htree⟩ :=
    exists_wrapper_synthesize hbindings hexpected (String.ofList e.print)
  have htokens := map_token_tokenize_print h
  have hplain : ∀ lexeme ∈ tokenize (String.ofList e.print), lexeme.token ≠ .error := by
    intro lexeme hmem herror
    apply (Expr.printed e h).plain
    rw [← htokens, ← herror]
    exact List.mem_map_of_mem hmem
  have haccepts := Parser.accepts_tokens e
  rw [← htokens] at haccepts
  obtain ⟨lambda, hlambda, hbody⟩ := htree.exists_lambda hbindings hexpected hplain haccepts
  exact ⟨tree, lambda, hwrapper, htree.syntaxErrors_eq_nil hbindings hexpected hplain hlambda,
    hlambda, hbody⟩

/-- A comparison within another, a difference on the right of another and a conditional that is an
operand, which all need parentheses, and a string with escapes. -/
def layered : Expr :=
  .binary .eq
    (.binary .lt (.ident "a" ⟨0, 0⟩)
      (.binary .sub (.literal (.int 1) ⟨0, 0⟩)
        (.binary .sub (.literal (.int 20) ⟨0, 0⟩) (.unary .neg (.ident "a" ⟨0, 0⟩) ⟨0, 0⟩) ⟨0, 0⟩)
        ⟨0, 0⟩) ⟨0, 0⟩)
    (.unary .not
      (.conditional (.literal (.bool true) ⟨0, 0⟩)
        (.call "f" ⟨0, 0⟩ [.literal (.str "\"\\\n") ⟨0, 0⟩, .ident "iff" ⟨0, 0⟩] ⟨0, 0⟩)
        (.literal (.float ⟨['1'], ['5', '0']⟩) ⟨0, 0⟩) ⟨0, 0⟩) ⟨0, 0⟩) ⟨0, 0⟩

theorem layered_print_body :
    ∃ tree lambda, Tree.wrapper? (synthesize [⟨"a", .integer⟩] .integer
        "(a < 1 - (20 - -a)) == !(if true then f(\"\\\"\\\\\\n\", iff) else 1.50)") = some tree ∧
      tree.syntaxErrors = [] ∧ tree.lambda = some lambda ∧ lambda.body.bare = layered.bare := by
  have hbindings : ∀ b ∈ [(⟨"a", .integer⟩ : Binding)], b.WellNamed := by
    intro b hmem
    rw [List.mem_singleton.mp hmem]
    exact ⟨by decide +kernel, wellNamed_integer⟩
  have ha : IsIdentifier "a".toList := by decide +kernel
  have hf : IsIdentifier "f".toList := by decide +kernel
  have hiff : IsIdentifier "iff".toList := by decide +kernel
  have hfloat : Numeral.WellFormed ⟨['1'], ['5', '0']⟩ :=
    ⟨List.cons_ne_nil _ _, rfl, List.cons_ne_nil _ _, rfl⟩
  have hone : 1 ≤ maxInt := by decide
  have htwenty : 20 ≤ maxInt := by decide
  have hprintable : layered.Printable :=
    ⟨⟨ha, hone, htwenty, ha⟩, trivial, ⟨hf, trivial, hiff, trivial⟩, hfloat⟩
  have hprint : "(a < 1 - (20 - -a)) == !(if true then f(\"\\\"\\\\\\n\", iff) else 1.50)" =
      String.ofList layered.print := by
    decide +kernel
  rw [hprint]
  exact wrapper_print_body hbindings wellNamed_integer hprintable

end ExprVet.Calc
