import ExprVet.Proofs.Places

/-!
# Nesting of places

The tokens of a source follow one another, and an expression reaches from one of its tokens to the
same or a later one. The operands of an expression are read from separate stretches of its tokens.
So places are nested as the expressions are, whatever was skipped between the tokens.
-/

namespace ExprVet

/-- One span ends before another one starts. -/
def Span.Before (first second : Span) : Prop := first.stop ≤ second.start

/-- One span is part of another and is not empty. -/
structure Span.Encloses (outer inner : Span) : Prop where
  start_le : outer.start ≤ inner.start
  start_lt_stop : inner.start < inner.stop
  stop_le : inner.stop ≤ outer.stop

theorem Span.Encloses.trans {outer middle inner : Span} (h : outer.Encloses middle)
    (h' : middle.Encloses inner) : outer.Encloses inner :=
  ⟨h.start_le.trans h'.start_le, h'.start_lt_stop, h'.stop_le.trans h.stop_le⟩

/-- A part is told as it stands, counted from the start of the whole. -/
theorem Span.Encloses.within_eq {body span : Span} (h : body.Encloses span) :
    span.within body = some ⟨span.start - body.start, span.stop - body.start⟩ := by
  obtain ⟨hstart, hlt, hstop⟩ := h
  have hinside : ¬(span.start < body.start ∨ body.stop < span.start) := by omega
  have hlast : max span.start (min span.stop body.stop) = span.stop := by omega
  rw [Span.within, if_neg hinside, hlast]

namespace Calc

open Text

namespace Expr

mutual

/-- The nodes of a syntax tree from left to right, operands in front of their operations. -/
def nodes : Expr → List Expr
  | literal value span => [literal value span]
  | ident name span => [ident name span]
  | unary op operand span => operand.nodes ++ [unary op operand span]
  | binary op left right span => left.nodes ++ right.nodes ++ [binary op left right span]
  | conditional condition thenBranch elseBranch span =>
      condition.nodes ++ thenBranch.nodes ++ elseBranch.nodes ++
        [conditional condition thenBranch elseBranch span]
  | call callee calleeSpan args span => allNodes args ++ [call callee calleeSpan args span]

def allNodes : List Expr → List Expr
  | [] => []
  | arg :: args => arg.nodes ++ allNodes args

end

theorem mem_nodes_self (e : Expr) : e ∈ e.nodes := by
  cases e <;> simp [nodes]

theorem subset_allNodes (args : List Expr) : args ⊆ allNodes args := by
  induction args with
  | nil => exact List.nil_subset _
  | cons arg args ih =>
      rw [List.cons_subset, allNodes]
      exact ⟨List.mem_append_left _ arg.mem_nodes_self, List.subset_append_of_subset_right _ ih⟩

/-- The places of what a node is made of, from left to right. -/
def parts : Expr → List Span
  | literal _ _ | ident _ _ => []
  | unary _ operand _ => [operand.span]
  | binary _ left right _ => [left.span, right.span]
  | conditional condition thenBranch elseBranch _ =>
      [condition.span, thenBranch.span, elseBranch.span]
  | call _ calleeSpan args _ => calleeSpan :: args.map span

/-- The name in a node, with its place. -/
def name? : Expr → Option (String × Span)
  | ident name span => some (name, span)
  | call callee calleeSpan _ _ => some (callee, calleeSpan)
  | _ => none

end Expr

/-- Tokens that take up some of the source and follow one another. -/
structure Ordered (read : List Lexeme) : Prop where
  nonempty : ∀ lexeme ∈ read, lexeme.span.start < lexeme.span.stop
  apart : read.Pairwise fun first second => first.span.Before second.span

theorem ordered_tokenize (source : String) : Ordered (tokenize source) :=
  ⟨fun _ => start_lt_stop_of_mem_lexemes, pairwise_lexemes 0 source.toList⟩

theorem Ordered.sublist {read part : List Lexeme} (h : Ordered read) (hpart : part.Sublist read) :
    Ordered part :=
  ⟨fun lexeme hmem => h.nonempty lexeme (hpart.subset hmem), h.apart.sublist hpart⟩

/-- Each token lies in the stretch of all of them. -/
theorem Ordered.stretch_encloses {read : List Lexeme} (h : Ordered read) :
    ∀ lexeme ∈ read, (stretch read).Encloses lexeme.span := by
  induction read with
  | nil => exact List.forall_mem_nil _
  | cons first rest ih =>
      have hfirst := h.nonempty first List.mem_cons_self
      have hapart := (List.pairwise_cons.mp h.apart).1
      have hrest := ih (h.sublist (List.sublist_cons_self first rest))
      cases rest with
      | nil =>
          rw [List.forall_mem_singleton]
          exact ⟨Nat.le_refl _, hfirst, Nat.le_refl _⟩
      | cons next rest =>
          have hstop : (stretch (first :: next :: rest)).stop = (stretch (next :: rest)).stop := rfl
          have hnext := h.nonempty next (List.mem_cons_of_mem _ List.mem_cons_self)
          have hlast := (hrest next List.mem_cons_self).stop_le
          have hgap : first.span.stop ≤ next.span.start := hapart next List.mem_cons_self
          rw [List.forall_mem_cons]
          refine ⟨⟨Nat.le_refl _, hfirst, ?_⟩, fun lexeme hmem => ?_⟩
          · rw [hstop]
            omega
          · have hbehind : first.span.stop ≤ lexeme.span.start := hapart lexeme hmem
            refine ⟨?_, (hrest lexeme hmem).start_lt_stop, (hrest lexeme hmem).stop_le⟩
            exact hfirst.le.trans hbehind

section

variable {read left right : List Lexeme} {span first second : Span}

theorem Reaches.start_lt_stop (h : Reaches read span) (hread : Ordered read) :
    span.start < span.stop := by
  obtain ⟨lexeme, rest, last, hrest, hlast, rfl⟩ := h
  have hpart := hread.sublist hrest
  have hinside := hpart.stretch_encloses last hlast
  exact hinside.start_le.trans_lt hinside.start_lt_stop

/-- What reaches through some tokens lies in their stretch. -/
theorem Reaches.enclosed (h : Reaches read span) (hread : Ordered read) :
    (stretch read).Encloses span := by
  have hnonempty := h.start_lt_stop hread
  obtain ⟨lexeme, rest, last, hrest, hlast, rfl⟩ := h
  have hstart := (hread.stretch_encloses lexeme (hrest.subset List.mem_cons_self)).start_le
  have hstop := (hread.stretch_encloses last (hrest.subset hlast)).stop_le
  exact ⟨hstart, hnonempty, hstop⟩

/-- What reaches through tokens ends before what reaches through later ones. -/
theorem Reaches.before (hleft : Reaches left first) (hright : Reaches right second)
    (hread : Ordered (left ++ right)) : first.Before second := by
  obtain ⟨_, _, last, hrest, hlast, rfl⟩ := hleft
  obtain ⟨lexeme, _, _, hrest', -, rfl⟩ := hright
  have hcross := (List.pairwise_append.mp hread.apart).2.2
  exact hcross last (hrest.subset hlast) lexeme (hrest'.subset List.mem_cons_self)

end

/-- The parts of a node lie in it one after another, and an operation on two operands has nothing
around them. -/
structure Expr.Nested (e : Expr) : Prop where
  encloses : ∀ part ∈ e.parts, e.span.Encloses part
  apart : e.parts.Pairwise Span.Before
  joined : ∀ op left right span, e = .binary op left right span →
    span = left.span.join right.span

/-- A nested node that reaches through some tokens, of which one is its name. -/
structure Expr.Placed (read : List Lexeme) (e : Expr) : Prop extends e.Nested where
  reaches : Reaches read e.span
  named : ∀ occurrence ∈ e.name?,
    ∃ lexeme ∈ read, lexeme.token = .ident occurrence.1 ∧ lexeme.span = occurrence.2

theorem Expr.Placed.mono {read more : List Lexeme} {e : Expr} (h : e.Placed read)
    (hsublist : read.Sublist more) : e.Placed more := by
  refine ⟨h.toNested, h.reaches.mono hsublist, fun occurrence hname => ?_⟩
  obtain ⟨lexeme, hmem, hlexeme⟩ := h.named occurrence hname
  exact ⟨lexeme, hsublist.subset hmem, hlexeme⟩

/-- All of some nodes have their places among the tokens. -/
def AllPlaced (read : List Lexeme) (nodes : List Expr) : Prop := ∀ node ∈ nodes, node.Placed read

namespace AllPlaced

variable {read more left right : List Lexeme} {nodes : List Expr} {first second e : Expr}

theorem mono (h : AllPlaced read nodes) (hsublist : read.Sublist more) : AllPlaced more nodes :=
  fun node hmem => (h node hmem).mono hsublist

theorem reaches (h : AllPlaced read e.nodes) : Reaches read e.span :=
  (h e e.mem_nodes_self).reaches

theorem reaches_args {args : List Expr} (h : AllPlaced read (Expr.allNodes args)) :
    ∀ span ∈ args.map Expr.span, Reaches read span := by
  rw [List.forall_mem_map]
  exact fun arg hmem => (h arg (Expr.subset_allNodes args hmem)).reaches

/-- Two operands with an operator between them. -/
theorem joined {between : Lexeme} (hleft : AllPlaced left first.nodes)
    (hright : AllPlaced right second.nodes) (hread : Ordered (left ++ between :: right))
    (op : BinaryOp) : AllPlaced (left ++ between :: right) (Expr.joined op first second).nodes := by
  have hinLeft := List.sublist_append_left left (between :: right)
  have hinRight := sublist_behind left between right
  have hbefore : first.span.Before second.span :=
    hleft.reaches.before (hright.reaches.mono (List.sublist_cons_self between right)) hread
  have hfirst := hleft.reaches.start_lt_stop (hread.sublist hinLeft)
  have hsecond := hright.reaches.start_lt_stop (hread.sublist hinRight)
  have hnode : (Expr.joined op first second).Placed (left ++ between :: right) := by
    refine ⟨⟨?_, List.pairwise_pair.mpr hbefore, ?_⟩,
      hleft.reaches.append_join hright.reaches between, nofun⟩
    · rw [Expr.joined, Expr.parts, List.forall_mem_cons, List.forall_mem_singleton]
      rw [Span.Before] at hbefore
      exact ⟨⟨Nat.le_refl _, hfirst, hbefore.trans hsecond.le⟩,
        ⟨hfirst.le.trans hbefore, hsecond, Nat.le_refl _⟩⟩
    · rintro _ _ _ _ ⟨⟩
      rfl
  rw [AllPlaced, Expr.joined, Expr.nodes, List.forall_mem_append, List.forall_mem_append,
    List.forall_mem_singleton]
  exact ⟨⟨hleft.mono hinLeft, hright.mono hinRight⟩, hnode⟩

/-- An operand with an operator in front. -/
theorem unary {before : Lexeme} (h : AllPlaced read e.nodes) (hread : Ordered (before :: read))
    (op : UnaryOp) :
    AllPlaced (before :: read) (Expr.unary op e (before.span.join e.span)).nodes := by
  have hbefore : before.span.Before e.span :=
    (reaches_of_mem (List.mem_singleton_self before)).before h.reaches hread
  have hfirst := hread.nonempty before List.mem_cons_self
  have hoperand := h.reaches.start_lt_stop (hread.sublist (List.sublist_cons_self before read))
  have hnode : (Expr.unary op e (before.span.join e.span)).Placed (before :: read) := by
    refine ⟨⟨?_, List.pairwise_singleton _ _, nofun⟩, h.reaches.cons_join before, nofun⟩
    rw [Expr.parts, List.forall_mem_singleton]
    exact ⟨hfirst.le.trans hbefore, hoperand, Nat.le_refl _⟩
  rw [AllPlaced, Expr.nodes, List.forall_mem_append, List.forall_mem_singleton]
  exact ⟨h.mono (List.sublist_cons_self before read), hnode⟩

/-- Arguments with a name in front. -/
theorem call {callee : String} {name : Lexeme} {args : List Expr}
    (hname : name.token = .ident callee) (hargs : AllPlaced read (Expr.allNodes args))
    (hapart : (args.map Expr.span).Pairwise Span.Before) (hread : Ordered (name :: read)) :
    AllPlaced (name :: read) (Expr.call callee name.span args (stretch (name :: read))).nodes := by
  have hcallee : Reaches [name] name.span := reaches_of_mem (List.mem_singleton_self name)
  have hrest := List.sublist_cons_self name read
  have hnode : (Expr.call callee name.span args (stretch (name :: read))).Placed
      (name :: read) := by
    refine ⟨⟨?_, ?_, nofun⟩, reaches_stretch name read, ?_⟩
    · rw [Expr.parts, List.forall_mem_cons]
      exact ⟨(reaches_of_mem List.mem_cons_self).enclosed hread,
        fun span hspan => ((hargs.reaches_args span hspan).mono hrest).enclosed hread⟩
    · rw [Expr.parts, List.pairwise_cons]
      exact ⟨fun span hspan => hcallee.before (hargs.reaches_args span hspan) hread, hapart⟩
    · rintro _ ⟨⟩
      exact ⟨name, List.mem_cons_self, hname, rfl⟩
  rw [AllPlaced, Expr.nodes, List.forall_mem_append, List.forall_mem_singleton]
  exact ⟨hargs.mono hrest, hnode⟩

/-- Three expressions with a word in front of each. -/
theorem conditional {kwIf kwThen kwElse : Lexeme} {inCondition inThen inElse : List Lexeme}
    {condition thenBranch elseBranch : Expr} (hcondition : AllPlaced inCondition condition.nodes)
    (hthen : AllPlaced inThen thenBranch.nodes) (helse : AllPlaced inElse elseBranch.nodes)
    (hread : Ordered (kwIf :: (inCondition ++ kwThen :: (inThen ++ kwElse :: inElse)))) :
    AllPlaced (kwIf :: (inCondition ++ kwThen :: (inThen ++ kwElse :: inElse)))
      (Expr.conditional condition thenBranch elseBranch
        (stretch (kwIf :: (inCondition ++ kwThen :: (inThen ++ kwElse :: inElse))))).nodes := by
  -- the branches are read from behind the condition, the second one from behind the first
  have hall := List.sublist_cons_self kwIf (inCondition ++ kwThen :: (inThen ++ kwElse :: inElse))
  have hbranches := sublist_behind inCondition kwThen (inThen ++ kwElse :: inElse)
  have hinThen := List.sublist_append_left inThen (kwElse :: inElse)
  have hinElse := sublist_behind inThen kwElse inElse
  have hinCondition :=
    (List.sublist_append_left inCondition (kwThen :: (inThen ++ kwElse :: inElse))).trans hall
  have hbehind {span : Span} (h : Reaches (inThen ++ kwElse :: inElse) span) :
      condition.span.Before span :=
    hcondition.reaches.before (h.mono (List.sublist_cons_self kwThen _)) (hread.sublist hall)
  have hlast : thenBranch.span.Before elseBranch.span :=
    hthen.reaches.before (helse.reaches.mono (List.sublist_cons_self kwElse inElse))
      (hread.sublist (hbranches.trans hall))
  have hthen' := hthen.mono hinThen
  have helse' := helse.mono hinElse
  have hnode : (Expr.conditional condition thenBranch elseBranch
      (stretch (kwIf :: (inCondition ++ kwThen :: (inThen ++ kwElse :: inElse))))).Placed
      (kwIf :: (inCondition ++ kwThen :: (inThen ++ kwElse :: inElse))) := by
    refine ⟨⟨?_, ?_, nofun⟩, reaches_stretch _ _, nofun⟩
    · rw [Expr.parts, List.forall_mem_cons, List.forall_mem_cons, List.forall_mem_singleton]
      exact ⟨(hcondition.mono hinCondition).reaches.enclosed hread,
        (hthen'.mono (hbranches.trans hall)).reaches.enclosed hread,
        (helse'.mono (hbranches.trans hall)).reaches.enclosed hread⟩
    · simp [Expr.parts, hbehind hthen'.reaches, hbehind helse'.reaches, hlast]
  rw [AllPlaced, Expr.nodes, List.forall_mem_append, List.forall_mem_append,
    List.forall_mem_append, List.forall_mem_singleton]
  exact ⟨⟨⟨hcondition.mono hinCondition, hthen'.mono (hbranches.trans hall)⟩,
    helse'.mono (hbranches.trans hall)⟩, hnode⟩

end AllPlaced

/-- The nodes that tokens stand for. -/
def Phrase.nodes : Phrase → List Expr
  | .expr _ e => e.nodes
  | .arguments args | .argumentList args => Expr.allNodes args

/-- The places of the expressions that tokens stand for as a whole. -/
def Phrase.parts : Phrase → List Span
  | .expr _ e => [e.span]
  | .arguments args | .argumentList args => args.map Expr.span

/-- Places are nested as expressions are: all nodes of what was read have their places among the
tokens, and what stands side by side was read from tokens side by side. -/
theorem Derives.placed {read : List Lexeme} {phrase : Phrase} (h : Derives read phrase)
    (hread : Ordered read) :
    AllPlaced read phrase.nodes ∧ phrase.parts.Pairwise Span.Before := by
  have hinside (before after : Lexeme) (read rest : List Lexeme) :
      read.Sublist (before :: (read ++ after :: rest)) :=
    (List.sublist_append_left _ _).cons before
  have hone (e : Expr) : [e.span].Pairwise Span.Before := List.pairwise_singleton _ _
  induction h with
  | operand _ ih | someArguments _ ih => exact ih hread
  | binary _ _ _ ihleft ihright | comparison _ _ _ ihleft ihright =>
      have hleft := (ihleft (hread.sublist (List.sublist_append_left _ _))).1
      have hright := (ihright (hread.sublist (sublist_behind _ _ _))).1
      exact ⟨hleft.joined hright hread _, hone _⟩
  | unary _ _ ih =>
      have hoperand := (ih (hread.sublist (List.sublist_cons_self _ _))).1
      exact ⟨hoperand.unary hread _, hone _⟩
  | literal =>
      refine ⟨?_, hone _⟩
      rw [AllPlaced, Phrase.nodes, Expr.nodes, List.forall_mem_singleton]
      exact ⟨⟨List.forall_mem_nil _, .nil, nofun⟩, reaches_of_mem List.mem_cons_self, nofun⟩
  | @ident name lexeme hname =>
      refine ⟨?_, hone _⟩
      rw [AllPlaced, Phrase.nodes, Expr.nodes, List.forall_mem_singleton]
      refine ⟨⟨List.forall_mem_nil _, .nil, nofun⟩, reaches_of_mem List.mem_cons_self, ?_⟩
      rintro _ ⟨⟩
      exact ⟨lexeme, List.mem_cons_self, hname, rfl⟩
  | call hname _ _ _ ih =>
      obtain ⟨hargs, hapart⟩ := ih (hread.sublist ((hinside _ _ _ _).cons _))
      exact ⟨(hargs.mono (hinside _ _ _ _)).call hname hapart hread, hone _⟩
  | @conditional _ kwThen kwElse _ inThen inElse _ _ _ _ _ _ _ _ _ ihcondition ihthen ihelse =>
      have hbranches : Ordered (inThen ++ kwElse :: inElse) :=
        hread.sublist ((sublist_behind _ kwThen _).cons _)
      have hcondition := (ihcondition (hread.sublist (hinside _ _ _ _))).1
      have hthen := (ihthen (hbranches.sublist (List.sublist_append_left _ _))).1
      have helse := (ihelse (hbranches.sublist (sublist_behind _ _ _))).1
      exact ⟨hcondition.conditional hthen helse hread, hone _⟩
  | parenthesised _ _ _ ih =>
      obtain ⟨hnodes, hparts⟩ := ih (hread.sublist (hinside _ _ _ _))
      exact ⟨hnodes.mono (hinside _ _ _ _), hparts⟩
  | argument _ ih =>
      simp only [Phrase.nodes, Expr.allNodes, List.append_nil]
      exact ih hread
  | noArguments => exact ⟨List.forall_mem_nil _, .nil⟩
  | @moreArguments read reads comma e args _ _ _ ihfirst ihrest =>
      have hinFirst := List.sublist_append_left read (comma :: reads)
      have hinRest := sublist_behind read comma reads
      obtain ⟨hfirst, -⟩ := ihfirst (hread.sublist hinFirst)
      obtain ⟨hrest, hapart⟩ := ihrest (hread.sublist hinRest)
      constructor
      · rw [AllPlaced, Phrase.nodes, Expr.allNodes, List.forall_mem_append]
        exact ⟨hfirst.mono hinFirst, hrest.mono hinRest⟩
      · rw [Phrase.parts, List.map_cons, List.pairwise_cons]
        refine ⟨fun span hspan => ?_, hapart⟩
        have hbehind := (hrest.reaches_args span hspan).mono (List.sublist_cons_self comma reads)
        exact hfirst.reaches.before hbehind hread
  | @lastComma read comma _ _ _ ih =>
      have hargs := List.sublist_append_left read [comma]
      obtain ⟨hnodes, hparts⟩ := ih (hread.sublist hargs)
      exact ⟨hnodes.mono hargs, hparts⟩

/-- A nested node that takes up some of the body. The text at the place of its name is the name. -/
structure Expr.WellPlaced (source : String) (body : Span) (e : Expr) : Prop extends e.Nested where
  inBody : body.Encloses e.span
  named : ∀ occurrence ∈ e.name?, occurrence.2.Selects source.toList occurrence.1.toList

section

variable {source : String} {tree : Tree} {lambda : Lambda}
  (hwrapper : Tree.wrapper? source = some tree) (hlambda : tree.lambda = some lambda)

include hwrapper hlambda

/-- The body of a wrapper starts behind the brace that opens the body of its lambda. -/
theorem exists_body_of_lambda :
    ∃ parts, withoutErrors (tokenize source) = parts.tokens ∧ lambda.ReadFrom parts ∧
      tree.body = some ⟨lambda.bodyOffset, source.utf8ByteSize - 1⟩ := by
  obtain ⟨-, parts, hparts, hread⟩ := exists_parts_of_wrapper? hwrapper hlambda
  refine ⟨parts, hparts, hread, ?_⟩
  simp only [Tree.wrapper?, Option.bind_eq_bind, Option.bind_eq_some_iff] at hwrapper
  obtain ⟨body, hbody, htree⟩ := hwrapper
  obtain rfl := Option.some.inj htree
  simp only [Tree.bodySpan?, Option.bind_eq_bind, Option.bind_eq_some_iff] at hbody
  obtain ⟨brace, hfind, hbody⟩ := hbody
  split at hbody
  · obtain rfl := Option.some.inj hbody
    have hbrace : brace.token = .lbrace := by
      have hfound := List.find?_some hfind
      simpa using hfound
    have hmem : brace ∈ withoutErrors (tokenize source) :=
      List.mem_filter.mpr ⟨List.mem_of_find?_eq_some hfind, by simp [hbrace]⟩
    obtain ⟨before, after, htokens⟩ := List.append_of_mem hmem
    rw [hparts] at htokens
    obtain ⟨-, rfl, -⟩ := hread.brace_eq hbrace htokens.symm
    rw [hread.offset]
    rfl
  · cases hbody

theorem wellPlaced_of_mem_nodes {node : Expr} (h : node ∈ lambda.body.nodes) :
    node.WellPlaced source ⟨lambda.bodyOffset, source.utf8ByteSize - 1⟩ := by
  obtain ⟨parts, hparts, hread, -⟩ := exists_body_of_lambda hwrapper hlambda
  have hsublist : (parts.brace :: (parts.inBody ++ [parts.closing])).Sublist
      (tokenize source) := by
    have htokens : parts.tokens.Sublist (tokenize source) := by
      rw [← hparts]
      exact List.filter_sublist
    exact ((List.sublist_append_right _ _).trans (sublist_behind _ _ _)).trans htokens
  have hmem {lexeme : Lexeme} (h : lexeme ∈ parts.inBody ++ [parts.closing]) :
      lexeme ∈ tokenize source := hsublist.subset (List.mem_cons_of_mem _ h)
  have hbraces := (ordered_tokenize source).sublist hsublist
  have hinside := hbraces.sublist (List.sublist_cons_self _ _)
  have hinBody := hinside.sublist (List.sublist_append_left _ _)
  have hplaced := (hread.body.placed hinBody).1 node h
  refine ⟨hplaced.toNested, ⟨?_, hplaced.reaches.start_lt_stop hinBody, ?_⟩, ?_⟩
  · have hopened : Reaches [parts.brace] parts.brace.span :=
      reaches_of_mem (List.mem_singleton_self _)
    rw [hread.offset]
    exact hopened.before (hplaced.reaches.mono (List.sublist_append_left _ _)) hbraces
  · have hclosed : Reaches [parts.closing] parts.closing.span :=
      reaches_of_mem (List.mem_singleton_self _)
    have hbefore : node.span.stop ≤ parts.closing.span.start :=
      hplaced.reaches.before hclosed hinside
    have hclosing : parts.closing ∈ tokenize source := hmem List.mem_concat_self
    have hend := (bounded_of_mem_tokenize hclosing).stop.le_byteLength
    have hbrace := start_lt_stop_of_mem_lexemes hclosing
    rw [byteLength_toList] at hend
    change node.span.stop ≤ source.utf8ByteSize - 1
    omega
  · intro occurrence hname
    obtain ⟨lexeme, hlexeme, htoken, hspan⟩ := hplaced.named occurrence hname
    have hsource := hmem (List.mem_append_left _ hlexeme)
    obtain ⟨span, hselects, heq⟩ := selects_of_mem_lexemes hsource
    rw [← hspan, heq, ← (text_of_ident hsource htoken).1]
    simpa [Span.shift] using hselects

/-- Every node of the body of a lambda takes up some of the body of the wrapper. Its parts follow one
another in its place, an operation on two operands reaches from the one to the other, and the text
at the place of its name is the name. -/
theorem nodes_wellPlaced :
    ∃ body, tree.body = some body ∧ ∀ node ∈ lambda.body.nodes, node.WellPlaced source body := by
  obtain ⟨parts, -, -, hbody⟩ := exists_body_of_lambda hwrapper hlambda
  exact ⟨_, hbody, fun node h => wellPlaced_of_mem_nodes hwrapper hlambda h⟩

end

/-- A wrapper with parentheses and error tokens in its body. -/
def gappedSource : String := "|x: Int| -> Int \x7b# (x # + @ (f # (2, -x)) )# \x7d"

theorem gappedSource_nodes_wellPlaced :
    ∃ tree lambda body, Tree.wrapper? gappedSource = some tree ∧ tree.lambda = some lambda ∧
      tree.body = some body ∧ (∀ node ∈ lambda.body.nodes, node.WellPlaced gappedSource body) ∧
      lambda.body.nodes.map Expr.span =
        [⟨20, 21⟩, ⟨34, 35⟩, ⟨38, 39⟩, ⟨37, 39⟩, ⟨29, 40⟩, ⟨20, 40⟩] := by
  have hspans : ((Tree.wrapper? gappedSource).bind (·.lambda)).map
      (fun lambda => lambda.body.nodes.map Expr.span) =
        some [⟨20, 21⟩, ⟨34, 35⟩, ⟨38, 39⟩, ⟨37, 39⟩, ⟨29, 40⟩, ⟨20, 40⟩] := by
    decide +kernel
  obtain ⟨lambda, hlambda, hspans⟩ := Option.map_eq_some_iff.mp hspans
  obtain ⟨tree, hwrapper, hlambda⟩ := Option.bind_eq_some_iff.mp hlambda
  obtain ⟨body, hbody, hnodes⟩ := nodes_wellPlaced hwrapper hlambda
  exact ⟨tree, lambda, body, hwrapper, hlambda, hbody, hnodes, hspans⟩

end Calc

end ExprVet
