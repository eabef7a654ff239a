import ExprVet.Calc.Parser.Lambda
import ExprVet.Proofs.Scanning
import ExprVet.Proofs.Spans

/-!
# The grammar of lambdas

What the parsers of types, parameters and lambdas read, whatever text the tokens come from. A lambda
has one arrow and, in front of it, one colon for each parameter, so that the arrow and the colons of
its tokens tell the names of its parameters.
-/

namespace ExprVet.Calc

/-- The tokens that types are made of. -/
def InType (token : Token) : Prop :=
  (∃ name, token = .ident name) ∨ token ∈ [.dot, .lt, .gt, .comma]

theorem InType.ne {token other : Token} (h : InType token)
    (hother : other ∈ [.arrow, .colon, .pipe, .or, .lbrace]) : token ≠ other := by
  rintro rfl
  rcases h with ⟨name, rfl⟩ | h
  · simp at hother
  · simp only [List.mem_cons, List.not_mem_nil, or_false] at h hother
    rcases h with rfl | rfl | rfl | rfl <;> simp at hother

/-- The tokens of a type. -/
structure TypeRead (read : List Lexeme) (ref : TypeRef) : Prop where
  inType : ∀ lexeme ∈ read, InType lexeme.token
  starts : ∀ span ∈ ref.spans, ∃ lexeme ∈ read, span.start = lexeme.span.start

namespace Parser

theorem sound_path : path.Sound fun read _ => read ≠ [] ∧ ∀ lexeme ∈ read, InType lexeme.token := by
  intro cursor name after hyields
  obtain ⟨segments, middle, hsegments, hpure⟩ := yields_bind hyields
  obtain ⟨rfl, rfl⟩ := yields_pure hpure
  obtain ⟨read, hreads, hseparated⟩ := (sound_select identToken).separated .dot hsegments
  refine ⟨read, hreads, ?_, ?_⟩
  · cases hseparated with
    | last h =>
        obtain ⟨lexeme, rfl, -⟩ := h
        exact List.cons_ne_nil _ _
    | more _ _ _ => simp
  · refine Separated.forall_mem (P := fun lexeme => InType lexeme.token) ?_ ?_ hseparated
    · rintro own ⟨segment, span⟩ ⟨lexeme, rfl, haccept, -⟩ found hfound
      rw [List.mem_singleton.mp hfound]
      exact .inl ⟨segment, identToken_eq_some_iff.mp haccept⟩
    · intro lexeme hdot
      rw [hdot]
      exact .inr (by simp)

theorem sound_typeWith {inner : Parser TypeRef} (h : inner.Sound TypeRead) :
    (typeWith inner).Sound TypeRead := by
  intro cursor ref after hyields
  obtain ⟨⟨⟨name, args⟩, span⟩, middle, hspanned, hpure⟩ := yields_bind hyields
  obtain ⟨rfl, rfl⟩ := yields_pure hpure
  obtain ⟨hspan, hyields⟩ := yields_spanned hspanned
  obtain ⟨_, first, hpath, hrest⟩ := yields_bind hyields
  obtain ⟨args?, second, hargs, hpure⟩ := yields_bind hrest
  obtain ⟨heq, rfl⟩ := yields_pure hpure
  cases heq
  obtain ⟨inPath, hreadPath, hne, hinPath⟩ := sound_path hpath
  -- the span of a type starts with the first token of its path
  have hstart : ∃ lexeme ∈ inPath, span.start = lexeme.span.start := by
    obtain ⟨lexeme, rest, rfl⟩ := List.exists_cons_of_ne_nil hne
    refine ⟨lexeme, List.mem_cons_self, ?_⟩
    rw [hspan]
    change cursor.start = _
    rw [Cursor.start, hreadPath.rest]
    rfl
  rcases yields_optional hargs with ⟨rfl, rfl⟩ | ⟨refs, rfl, hrefs⟩
  · refine ⟨inPath, hreadPath, hinPath, fun found hfound => ?_⟩
    rw [List.mem_singleton.mp hfound]
    exact hstart
  · obtain ⟨_, hreadArgs, opened, inArgs, closed, rfl, hopened, hseparated, hclosed⟩ :=
      (h.separated .comma).bracketed .lt .gt hrefs
    refine ⟨inPath ++ opened :: (inArgs ++ [closed]), hreadPath.append hreadArgs, ?_, ?_⟩
    · have hinArgs : ∀ lexeme ∈ inArgs, InType lexeme.token := by
        apply hseparated.forall_mem fun own ref hread => hread.inType
        intro lexeme hcomma
        rw [hcomma]
        exact .inr (by simp)
      intro lexeme hmem
      simp only [List.mem_append, List.mem_cons, List.not_mem_nil, or_false] at hmem
      rcases hmem with hmem | rfl | hmem | rfl
      · exact hinPath lexeme hmem
      · exact .inr (by simp [hopened])
      · exact hinArgs lexeme hmem
      · exact .inr (by simp [hclosed])
    · intro place hplace
      rcases List.mem_cons.mp hplace with rfl | hplace
      · obtain ⟨lexeme, hmem, hlexeme⟩ := hstart
        exact ⟨lexeme, List.mem_append_left _ hmem, hlexeme⟩
      · obtain ⟨ref, hmem, hplace⟩ := TypeRef.mem_allSpans hplace
        obtain ⟨own, hown, hread⟩ := hseparated.exists_of_mem hmem
        obtain ⟨lexeme, hlexeme, hstart⟩ := hread.starts place hplace
        exact ⟨lexeme, by simp [hown hlexeme], hstart⟩

theorem sound_typeUpTo (depth : Nat) : (typeUpTo depth).Sound TypeRead := by
  induction depth with
  | zero =>
      rintro cursor ref after ⟨pending, hrun⟩
      cases hrun
  | succ depth ih => exact sound_typeWith ih

theorem sound_type : type.Sound TypeRead := by
  apply Sound.labelled
  rintro cursor ref after ⟨pending, hrun⟩
  exact sound_typeUpTo (cursor.rest.length + 1) ⟨pending, hrun⟩

end Parser

/-- The tokens of a parameter. -/
def ParamRead (read : List Lexeme) (param : Param) : Prop :=
  ∃ name colon inType, read = name :: colon :: inType ∧ name.token = .ident param.name ∧
    colon.token = .colon ∧ TypeRead inType param.type

/-- The tokens of the parameters of a lambda with the bars around them. -/
inductive ParamsRead : List Lexeme → List Param → Prop
  | none {both : Lexeme} (h : both.token = .or) : ParamsRead [both] []
  | some {opened closed : Lexeme} {read : List Lexeme} {params : List Param}
      (hopened : opened.token = .pipe) (h : Parser.Listed ParamRead .comma read params)
      (hclosed : closed.token = .pipe) : ParamsRead (opened :: (read ++ [closed])) params

namespace Parser

/-- A parameter is read from its name, a colon and what its type is read from. -/
theorem sound_parameter_of {R : List Lexeme → TypeRef → Prop} (h : type.Sound R) :
    parameter.Sound fun read param => ∃ name colon inType, read = name :: colon :: inType ∧
      name.token = .ident param.name ∧ colon.token = .colon ∧ R inType param.type := by
  apply Sound.labelled
  intro cursor param after hyields
  obtain ⟨⟨⟨name, ref⟩, span⟩, middle, hspanned, hpure⟩ := yields_bind hyields
  obtain ⟨rfl, rfl⟩ := yields_pure hpure
  obtain ⟨-, hyields⟩ := yields_spanned hspanned
  obtain ⟨⟨found, place⟩, first, hname, hrest⟩ := yields_bind hyields
  obtain ⟨_, second, hcolon, hrest⟩ := yields_bind hrest
  obtain ⟨ref', third, htype, hpure⟩ := yields_bind hrest
  obtain ⟨heq, rfl⟩ := yields_pure hpure
  cases heq
  obtain ⟨_, hreadName, lexeme, rfl, haccept, -⟩ := sound_select identToken hname
  obtain ⟨colon, hcolon, -, hreadColon⟩ := yields_token hcolon
  obtain ⟨inType, hreadType, hread⟩ := h htype
  exact ⟨lexeme :: colon :: inType, hreadName.append (hreadColon.append hreadType), lexeme, colon,
    inType, rfl, identToken_eq_some_iff.mp haccept, hcolon, hread⟩

theorem sound_parameter : parameter.Sound ParamRead := sound_parameter_of sound_type

/-- Parameters are read from two bars, or from what each of them is read from, between bars. -/
theorem sound_params_of {R : List Lexeme → Param → Prop} {Q : List Lexeme → List Param → Prop}
    (h : parameter.Sound R) (hnone : ∀ both : Lexeme, both.token = .or → Q [both] [])
    (hsome : ∀ (opened closed : Lexeme) (read : List Lexeme) (params : List Param),
      opened.token = .pipe → Listed R .comma read params → closed.token = .pipe →
        Q (opened :: (read ++ [closed])) params) :
    (orElse noParameters parameters).Sound Q := by
  apply Sound.orElse
  · intro cursor params after hyields
    obtain ⟨_, middle, hor, hpure⟩ := yields_bind hyields
    obtain ⟨rfl, rfl⟩ := yields_pure hpure
    obtain ⟨both, hboth, -, hreads⟩ := yields_token hor
    exact ⟨[both], hreads, hnone both hboth⟩
  · apply ((h.separatedOrNone .comma).bracketed .pipe .pipe).imp
    rintro _ params ⟨opened, read, closed, rfl, hopened, hlisted, hclosed⟩
    exact hsome opened closed read params hopened hlisted hclosed

theorem sound_params : (orElse noParameters parameters).Sound ParamsRead :=
  sound_params_of sound_parameter (fun _ => .none) fun _ _ _ _ => .some

end Parser

theorem ParamsRead.starts {read : List Lexeme} {params : List Param} (h : ParamsRead read params)
    {param : Param} (hparam : param ∈ params) {span : Span} (hspan : span ∈ param.type.spans) :
    ∃ lexeme ∈ read, span.start = lexeme.span.start := by
  have hrow {row : List Lexeme} (hrow : Parser.Separated ParamRead .comma row params) :
      ∃ lexeme ∈ row, span.start = lexeme.span.start := by
    obtain ⟨own, hown, _, _, inType, rfl, -, -, htype⟩ := hrow.exists_of_mem hparam
    obtain ⟨lexeme, hlexeme, hstart⟩ := htype.starts span hspan
    exact ⟨lexeme, hown (List.mem_cons_of_mem _ (List.mem_cons_of_mem _ hlexeme)), hstart⟩
  cases h with
  | none => cases hparam
  | some _ h _ =>
      cases h with
      | none => cases hparam
      | some h =>
          obtain ⟨lexeme, hlexeme, hstart⟩ := hrow h
          exact ⟨lexeme, by simp [hlexeme], hstart⟩
      | trailing h _ =>
          obtain ⟨lexeme, hlexeme, hstart⟩ := hrow h
          exact ⟨lexeme, by simp [hlexeme], hstart⟩

/-- The tokens of a lambda, part by part. -/
structure LambdaParts where
  inParams : List Lexeme
  arrow : Lexeme
  inResult : List Lexeme
  brace : Lexeme
  inBody : List Lexeme
  closing : Lexeme

def LambdaParts.tokens (parts : LambdaParts) : List Lexeme :=
  parts.inParams ++ parts.arrow ::
    (parts.inResult ++ parts.brace :: (parts.inBody ++ [parts.closing]))

/-- A lambda is read from its parts. -/
structure Lambda.ReadFrom (parts : LambdaParts) (lambda : Lambda) : Prop where
  params : ParamsRead parts.inParams lambda.params
  arrow : parts.arrow.token = .arrow
  ret : TypeRead parts.inResult lambda.ret
  brace : parts.brace.token = .lbrace
  offset : lambda.bodyOffset = parts.brace.span.stop
  body : DerivesAt .disjunction parts.inBody lambda.body
  closing : parts.closing.token = .rbrace

/-- The steps in which a lambda is read. -/
theorem Parser.yields_lambda {cursor after : Cursor} {l : Lambda}
    (h : lambda.Yields cursor l after) :
    ∃ arrow brace closing : Lexeme, ∃ stop1 stop2 stop3 inRet inBody,
      arrow.token = .arrow ∧ brace.token = .lbrace ∧ closing.token = .rbrace ∧
      (orElse noParameters parameters).Yields cursor l.params ⟨stop1, arrow :: inRet⟩ ∧
      type.Yields ⟨arrow.span.stop, inRet⟩ l.ret ⟨stop2, brace :: inBody⟩ ∧
      l.bodyOffset = brace.span.stop ∧
      expr.Yields ⟨brace.span.stop, inBody⟩ l.body ⟨stop3, closing :: after.rest⟩ ∧
      after.stop = closing.span.stop := by
  obtain ⟨params, c1, hparams, hrest⟩ := yields_bind (yields_labelled h)
  obtain ⟨_, c2, hread1, hrest⟩ := yields_bind hrest
  obtain ⟨ret, c3, hret, hrest⟩ := yields_bind hrest
  obtain ⟨offset, c4, hread2, hrest⟩ := yields_bind hrest
  obtain ⟨body, c5, hbody, hrest⟩ := yields_bind hrest
  obtain ⟨_, c6, hread3, hpure⟩ := yields_bind hrest
  obtain ⟨rfl, rfl⟩ := yields_pure hpure
  obtain ⟨stop1, arrow, inRet, harrow, -, rfl, rfl⟩ := eq_of_yields_token hread1
  obtain ⟨stop2, brace, inBody, hbrace, rfl, rfl, rfl⟩ := eq_of_yields_token hread2
  obtain ⟨stop3, closing, rest, hclosing, -, rfl, rfl⟩ := eq_of_yields_token hread3
  exact ⟨arrow, brace, closing, stop1, stop2, stop3, inRet, inBody, harrow, hbrace, hclosing,
    hparams, hret, rfl, hbody, rfl⟩

theorem Parser.sound_lambda : Parser.lambda.Sound fun read lambda =>
    ∃ parts, read = parts.tokens ∧ lambda.ReadFrom parts := by
  intro cursor lambda after hyields
  obtain ⟨arrow, brace, closing, _, _, _, _, _, harrow, hbrace, hclosing, hparams, hret, hoffset,
    hbody, hstop⟩ := yields_lambda hyields
  obtain ⟨inParams, hreadParams, hparams⟩ := sound_params hparams
  obtain ⟨inResult, hreadResult, hret⟩ := sound_type hret
  obtain ⟨inBody, hreadBody, hbody⟩ := sound_expr hbody
  have hreadArrow (stop : Nat) (rest : List Lexeme) :
      Cursor.Reads ⟨stop, arrow :: rest⟩ [arrow] ⟨arrow.span.stop, rest⟩ := ⟨rfl, rfl⟩
  have hreadBrace (stop : Nat) (rest : List Lexeme) :
      Cursor.Reads ⟨stop, brace :: rest⟩ [brace] ⟨brace.span.stop, rest⟩ := ⟨rfl, rfl⟩
  have hreadClosing (stop : Nat) : Cursor.Reads ⟨stop, closing :: after.rest⟩ [closing] after :=
    ⟨rfl, hstop⟩
  refine ⟨_, hreadParams.append ((hreadArrow _ _).append (hreadResult.append
    ((hreadBrace _ _).append (hreadBody.append (hreadClosing _))))),
    ⟨inParams, arrow, inResult, brace, inBody, closing⟩, rfl, ?_⟩
  exact ⟨hparams, harrow, hret, hbrace, hoffset, hbody, hclosing⟩

/-- The name that a token is, provided that a colon comes after it. -/
def Lexeme.beforeColon? (lexeme : Lexeme) (following : Option Token) : Option String :=
  if following = some .colon then Parser.identToken lexeme.token else none

/-- The names that stand directly before a colon. -/
def namesBeforeColons : List Lexeme → List String
  | [] => []
  | lexeme :: rest => (lexeme.beforeColon? (firstToken? rest)).toList ++ namesBeforeColons rest

theorem namesBeforeColons_append {xs ys : List Lexeme} (h : firstToken? ys ≠ some .colon) :
    namesBeforeColons (xs ++ ys) = namesBeforeColons xs ++ namesBeforeColons ys := by
  induction xs with
  | nil => rfl
  | cons x xs ih =>
      have hnext : x.beforeColon? (firstToken? (xs ++ ys)) = x.beforeColon? (firstToken? xs) := by
        cases xs with
        | nil => exact if_neg h
        | cons _ _ => rfl
      rw [List.cons_append, namesBeforeColons, namesBeforeColons, hnext, ih, List.append_assoc]

theorem namesBeforeColons_of_no_colon {xs : List Lexeme}
    (h : ∀ lexeme ∈ xs, lexeme.token ≠ .colon) : namesBeforeColons xs = [] := by
  induction xs with
  | nil => rfl
  | cons x xs ih =>
      have hne : firstToken? xs ≠ some .colon := by
        cases xs with
        | nil => exact nofun
        | cons y ys => exact fun heq => h y (by simp) (Option.some.inj heq)
      have hnone : x.beforeColon? (firstToken? xs) = none := if_neg hne
      rw [namesBeforeColons, hnone, ih fun lexeme hmem => h lexeme (List.mem_cons_of_mem _ hmem)]
      rfl

/-- How many tokens are colons. -/
def colons (lexemes : List Lexeme) : Nat := lexemes.countP (·.token == .colon)

theorem colons_append (xs ys : List Lexeme) : colons (xs ++ ys) = colons xs + colons ys :=
  List.countP_append

theorem colons_eq_zero {lexemes : List Lexeme} (h : ∀ lexeme ∈ lexemes, lexeme.token ≠ .colon) :
    colons lexemes = 0 := by
  rw [colons, List.countP_eq_zero]
  intro lexeme hmem
  simpa using h lexeme hmem

/-- What the colons of some tokens tell of the parameters that were read from them. -/
structure Declared (read : List Lexeme) (params : List Param) : Prop where
  names : namesBeforeColons read = params.map (·.name)
  colons : colons read = params.length
  first : firstToken? read ≠ some .colon
  plain : ∀ lexeme ∈ read, lexeme.token ≠ .arrow ∧ lexeme.token ≠ .lbrace

theorem Declared.append {xs ys : List Lexeme} {params more : List Param} (hx : Declared xs params)
    (hy : Declared ys more) : Declared (xs ++ ys) (params ++ more) := by
  constructor
  · rw [namesBeforeColons_append hy.first, hx.names, hy.names, List.map_append]
  · rw [colons_append, hx.colons, hy.colons, List.length_append]
  · cases xs with
    | nil => exact hy.first
    | cons _ _ => exact hx.first
  · intro lexeme hmem
    rcases List.mem_append.mp hmem with hmem | hmem
    · exact hx.plain lexeme hmem
    · exact hy.plain lexeme hmem

theorem declared_nil : Declared [] [] := ⟨rfl, rfl, nofun, by simp⟩

/-- Bars and commas declare nothing. -/
theorem declared_joint {joint : Lexeme} {separator : Token} (h : joint.token = separator)
    (hseparator : separator ∈ [.pipe, .or, .comma]) : Declared [joint] [] := by
  have hne {other : Token} (hother : other ∉ [Token.pipe, .or, .comma]) :
      ∀ lexeme ∈ [joint], lexeme.token ≠ other := by
    rintro lexeme hmem rfl
    rw [List.mem_singleton.mp hmem, h] at hother
    exact hother hseparator
  constructor
  · exact namesBeforeColons_of_no_colon (hne (by decide))
  · exact colons_eq_zero (hne (by decide))
  · exact fun heq => hne (by decide) joint List.mem_cons_self (Option.some.inj heq)
  · intro lexeme hmem
    exact ⟨hne (by decide) lexeme hmem, hne (by decide) lexeme hmem⟩

theorem TypeRead.ne {read : List Lexeme} {ref : TypeRef} (h : TypeRead read ref) {other : Token}
    (hother : other ∈ [.arrow, .colon, .pipe, .or, .lbrace]) :
    ∀ lexeme ∈ read, lexeme.token ≠ other :=
  fun lexeme hmem => (h.inType lexeme hmem).ne hother

theorem ParamRead.declared {read : List Lexeme} {param : Param} (h : ParamRead read param) :
    Declared read [param] := by
  obtain ⟨name, colon, inType, rfl, hname, hcolon, htype⟩ := h
  have hnocolon : ∀ lexeme ∈ inType, lexeme.token ≠ .colon := htype.ne (by simp)
  have hfirst : firstToken? (colon :: inType) = some .colon := congrArg some hcolon
  have hbefore : name.beforeColon? (firstToken? (colon :: inType)) = some param.name := by
    rw [Lexeme.beforeColon?, if_pos hfirst, hname]
    rfl
  have hafter : colon.beforeColon? (firstToken? inType) = none := by
    rw [Lexeme.beforeColon?, hcolon]
    exact ite_self none
  constructor
  · rw [namesBeforeColons, namesBeforeColons, namesBeforeColons_of_no_colon hnocolon, hbefore,
      hafter]
    rfl
  · have hno : colons inType = 0 := colons_eq_zero hnocolon
    rw [Calc.colons] at hno ⊢
    rw [List.countP_cons_of_neg (by simp [hname]), List.countP_cons_of_pos (by simp [hcolon]), hno]
    rfl
  · simp [firstToken?, hname]
  · intro lexeme hmem
    simp only [List.mem_cons] at hmem
    rcases hmem with rfl | rfl | hmem
    · simp [hname]
    · simp [hcolon]
    · exact ⟨htype.ne (by simp) lexeme hmem, htype.ne (by simp) lexeme hmem⟩

theorem declared_of_separated {read : List Lexeme} {params : List Param}
    (h : Parser.Separated ParamRead .comma read params) : Declared read params := by
  induction h with
  | last h => exact h.declared
  | more h hcomma _ ih =>
      exact h.declared.append ((declared_joint hcomma (by decide)).append ih)

theorem declared_of_listed {read : List Lexeme} {params : List Param}
    (h : Parser.Listed ParamRead .comma read params) : Declared read params := by
  cases h with
  | none => exact declared_nil
  | some h => exact declared_of_separated h
  | trailing h hlast =>
      have happend := (declared_of_separated h).append (declared_joint hlast (by decide))
      rwa [List.append_nil] at happend

theorem ParamsRead.declared {read : List Lexeme} {params : List Param}
    (h : ParamsRead read params) : Declared read params := by
  cases h with
  | none h => exact declared_joint h (by decide)
  | some hopened h hclosed =>
      have hinner := (declared_of_listed h).append (declared_joint hclosed (by decide))
      rw [List.append_nil] at hinner
      exact (declared_joint hopened (by decide)).append hinner

/-- The names of the parameters are those before a colon in front of the first arrow. -/
theorem Lambda.ReadFrom.names_eq {parts : LambdaParts} {lambda : Lambda}
    (h : lambda.ReadFrom parts) : lambda.params.map (·.name) =
      namesBeforeColons (parts.tokens.takeWhile (·.token != .arrow)) := by
  have hbefore : parts.tokens.takeWhile (·.token != .arrow) = parts.inParams := by
    rw [LambdaParts.tokens, List.takeWhile_append_of_pos, List.takeWhile_cons_of_neg,
      List.append_nil]
    · simp [h.arrow]
    · intro lexeme hmem
      simpa using (h.params.declared.plain lexeme hmem).1
  rw [hbefore, h.params.declared.names]

/-- The only arrow of a lambda is the one between its parameters and its result. -/
theorem Lambda.ReadFrom.inParams_eq {parts : LambdaParts} {lambda : Lambda}
    (h : lambda.ReadFrom parts) {before after : List Lexeme} {arrow : Lexeme}
    (harrow : arrow.token = .arrow) (htokens : before ++ arrow :: after = parts.tokens) :
    before = parts.inParams := by
  have hbefore : arrow ∉ parts.inParams := by
    intro hmem
    exact (h.params.declared.plain arrow hmem).1 harrow
  have hafter : arrow ∉ parts.inResult ++ parts.brace :: (parts.inBody ++ [parts.closing]) := by
    intro hmem
    simp only [List.mem_append, List.mem_cons, List.not_mem_nil, or_false] at hmem
    rcases hmem with hmem | rfl | hmem | rfl
    · exact h.ret.ne (by decide) arrow hmem harrow
    · exact absurd (h.brace.symm.trans harrow) (by decide)
    · exact h.body.ne (by simp) arrow hmem harrow
    · exact absurd (h.closing.symm.trans harrow) (by decide)
  exact ((List.append_cons_inj_of_notMem hbefore hafter).mp htokens.symm).1.symm

/-- The only opening brace of a lambda is the one between its result and its body. -/
theorem Lambda.ReadFrom.brace_eq {parts : LambdaParts} {lambda : Lambda}
    (h : lambda.ReadFrom parts) {before after : List Lexeme} {brace : Lexeme}
    (hbrace : brace.token = .lbrace) (htokens : before ++ brace :: after = parts.tokens) :
    before = parts.inParams ++ parts.arrow :: parts.inResult ∧ brace = parts.brace ∧
      after = parts.inBody ++ [parts.closing] := by
  have hbefore : brace ∉ parts.inParams ++ parts.arrow :: parts.inResult := by
    intro hmem
    rcases List.mem_append.mp hmem with hmem | hmem
    · exact (h.params.declared.plain brace hmem).2 hbrace
    · rcases List.mem_cons.mp hmem with rfl | hmem
      · exact absurd (h.arrow.symm.trans hbrace) (by decide)
      · exact h.ret.ne (by decide) brace hmem hbrace
  have hafter : brace ∉ parts.inBody ++ [parts.closing] := by
    intro hmem
    rcases List.mem_append.mp hmem with hmem | hmem
    · exact h.body.ne (by simp) brace hmem hbrace
    · rw [List.mem_singleton.mp hmem] at hbrace
      exact absurd (h.closing.symm.trans hbrace) (by decide)
  rw [LambdaParts.tokens, ← List.cons_append, ← List.append_assoc] at htokens
  obtain ⟨hheader, hopened, hbody⟩ :=
    (List.append_cons_inj_of_notMem hbefore hafter).mp htokens.symm
  exact ⟨hheader.symm, hopened.symm, hbody.symm⟩

end ExprVet.Calc
