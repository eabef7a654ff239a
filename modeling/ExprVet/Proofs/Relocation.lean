import ExprVet.Calc.Parser.Lambda

/-!
# Tokens in other places

A parser looks at what its tokens are and never at where they stand. It only copies their places, to
the nodes that it builds and to the expectations that it misses. So when the tokens are moved, what
it makes of them moves along, and it reads and misses the same.

## Implementation notes

A relocation moves the places where tokens start and those where they stop apart from one another,
as the end of one token and the start of the next one may be the same place in one layout and not in
another. A span is moved by its ends. Parsers are compared two at a time, `Moves m p q`, since what
comes after a value depends on that value, which is moved for `q`.
-/

namespace ExprVet.Calc

/-- Other places for the ends of tokens. -/
structure Relocation where
  start : Nat → Nat
  stop : Nat → Nat

/-- What has places in a source, which can be moved. -/
class Movable (α : Type) where
  move : Relocation → α → α

export Movable (move)

section Data

variable (m : Relocation)

instance : Movable Span := ⟨fun m span => ⟨m.start span.start, m.stop span.stop⟩⟩

instance : Movable Lexeme := ⟨fun m lexeme => { lexeme with span := move m lexeme.span }⟩

instance {α : Type} [Movable α] : Movable (List α) := ⟨fun m values => values.map (move m)⟩

instance {α : Type} [Movable α] : Movable (Option α) := ⟨fun m value => value.map (move m)⟩

instance {α β : Type} [Movable α] [Movable β] : Movable (α × β) :=
  ⟨fun m pair => (move m pair.1, move m pair.2)⟩

instance {ε α : Type} [Movable ε] [Movable α] : Movable (Except ε α) := ⟨fun m result =>
  match result with
  | .ok value => .ok (move m value)
  | .error error => .error (move m error)⟩

instance : Movable Pending := ⟨fun m pending => { pending with rest := move m pending.rest }⟩

instance : Movable Cursor := ⟨fun m cursor => ⟨m.stop cursor.stop, move m cursor.rest⟩⟩

-- What parsers read from a single token has no place of its own.

instance : Movable Unit := ⟨fun _ value => value⟩

instance : Movable String := ⟨fun _ text => text⟩

instance : Movable Literal := ⟨fun _ value => value⟩

instance : Movable UnaryOp := ⟨fun _ op => op⟩

instance : Movable BinaryOp := ⟨fun _ op => op⟩

mutual

/-- A type with the places of all its parts moved. -/
def TypeRef.moved (m : Relocation) : TypeRef → TypeRef
  | ⟨path, args, span⟩ => ⟨path, TypeRef.allMoved m args, move m span⟩

def TypeRef.allMoved (m : Relocation) : List TypeRef → List TypeRef
  | [] => []
  | ref :: refs => ref.moved m :: TypeRef.allMoved m refs

end

instance : Movable TypeRef := ⟨TypeRef.moved⟩

instance : Movable Param :=
  ⟨fun m param => ⟨param.name, move m param.type, move m param.span⟩⟩

mutual

/-- An expression with the places of all its nodes moved. -/
def Expr.moved (m : Relocation) : Expr → Expr
  | .literal value span => .literal value (move m span)
  | .ident name span => .ident name (move m span)
  | .unary op operand span => .unary op (operand.moved m) (move m span)
  | .binary op left right span => .binary op (left.moved m) (right.moved m) (move m span)
  | .conditional condition thenBranch elseBranch span =>
      .conditional (condition.moved m) (thenBranch.moved m) (elseBranch.moved m) (move m span)
  | .call callee calleeSpan args span =>
      .call callee (move m calleeSpan) (Expr.allMoved m args) (move m span)

def Expr.allMoved (m : Relocation) : List Expr → List Expr
  | [] => []
  | arg :: args => arg.moved m :: Expr.allMoved m args

end

instance : Movable Expr := ⟨Expr.moved⟩

instance : Movable Lambda := ⟨fun m lambda =>
  ⟨move m lambda.params, move m lambda.ret, move m lambda.body, m.stop lambda.bodyOffset⟩⟩

@[simp] theorem move_nil {α : Type} [Movable α] : move m ([] : List α) = [] := rfl

@[simp] theorem move_cons {α : Type} [Movable α] (value : α) (values : List α) :
    move m (value :: values) = move m value :: move m values := rfl

@[simp] theorem length_move {α : Type} [Movable α] (values : List α) :
    (move m values).length = values.length := List.length_map _

@[simp] theorem move_join (first last : Span) :
    move m (first.join last) = (move m first).join (move m last) := rfl

/-- The arguments of a type are moved as a list is. -/
theorem TypeRef.move_eq (path : String) (args : List TypeRef) (span : Span) :
    move m (⟨path, args, span⟩ : TypeRef) = ⟨path, move m args, move m span⟩ := by
  have hargs : TypeRef.allMoved m args = move m args := by
    induction args with
    | nil => rfl
    | cons arg args ih => rw [TypeRef.allMoved, ih]; rfl
  rw [← hargs]
  rfl

/-- The arguments of a call are moved as a list is. -/
theorem Expr.move_call (callee : String) (calleeSpan : Span) (args : List Expr) (span : Span) :
    move m (Expr.call callee calleeSpan args span) =
      .call callee (move m calleeSpan) (move m args) (move m span) := by
  have hargs : Expr.allMoved m args = move m args := by
    induction args with
    | nil => rfl
    | cons arg args ih => rw [Expr.allMoved, ih]; rfl
  rw [← hargs]
  rfl

@[simp] theorem Expr.span_move (e : Expr) : (move m e).span = move m e.span := by
  cases e <;> rfl

/-- A span is moved by its ends, so that a node joins its moved operands to its moved span. -/
theorem Expr.move_joined (op : BinaryOp) (left right : Expr) :
    move m (Expr.joined op left right) = .joined op (move m left) (move m right) := by
  have hmove : move m (Expr.joined op left right) =
      .binary op (move m left) (move m right) (move m (left.span.join right.span)) := rfl
  rw [hmove, move_join, joined, span_move, span_move]

end Data

namespace Pending

variable (m : Relocation)

@[simp] theorem rest_move (pending : Pending) : (move m pending).rest = move m pending.rest := rfl

@[simp] theorem expected_move (pending : Pending) :
    (move m pending).expected = pending.expected := rfl

/-- How far an expectation got is told by the number of tokens left, and that number stays. -/
theorem move_offer (rest : List Lexeme) (expected : Expected) (pending : Option Pending) :
    move m (offer rest expected pending) = offer (move m rest) expected (move m pending) := by
  cases pending with
  | none => rfl
  | some pending =>
      change _ = offer (move m rest) expected (some (move m pending))
      simp only [offer, rest_move, expected_move, length_move]
      repeat' split
      all_goals rfl

theorem move_relabel (rest : List Lexeme) (construct : Construct) (own : Option Pending) :
    move m (own.map (relabel rest construct)) =
      (move m own).map (relabel (move m rest) construct) := by
  cases own with
  | none => rfl
  | some own =>
      apply congrArg some
      simp only [relabel, rest_move, length_move]
      split <;> rfl

/-- The same of two expectations is the further one. -/
theorem move_merge (saved own : Pending) :
    move m (saved.merge own) = (move m saved).merge (move m own) := by
  simp only [merge, rest_move, expected_move, length_move]
  repeat' split
  all_goals rfl

theorem move_mergeOption (saved own : Option Pending) :
    move m (mergeOption saved own) = mergeOption (move m saved) (move m own) := by
  cases saved with
  | none => rfl
  | some saved =>
      cases own with
      | none => rfl
      | some own => exact congrArg some (move_merge m saved own)

/-- What a message says was found is a token, wherever it stands. -/
@[simp] theorem message_move (pending : Pending) : (move m pending).message = pending.message := by
  rcases pending with ⟨_ | ⟨lexeme, rest⟩, expected⟩ <;> rfl

end Pending

namespace Parser

variable {α β : Type} [Movable α] [Movable β] {m : Relocation}

/-- On moved tokens `q` does what `p` does on the tokens, with everything moved. -/
def Moves (m : Relocation) (p q : Parser α) : Prop :=
  ∀ cursor pending, q (move m cursor) (move m pending) = move m (p cursor pending)

variable {p q : Parser α}

theorem moves_pure {value moved : α} (h : moved = move m value) :
    Moves m (pure value) (pure moved) := by
  intro cursor pending
  rw [h]
  rfl

theorem moves_fail : Moves m (fail : Parser α) fail := fun _ _ => rfl

/-- What follows a value is compared with what follows the moved value. -/
theorem Moves.bind {next next' : α → Parser β} (h : Moves m p q)
    (hnext : ∀ value, Moves m (next value) (next' (move m value))) :
    Moves m (p >>= next) (q >>= next') := by
  intro cursor pending
  change Parser.bind q next' _ _ = move m (Parser.bind p next cursor pending)
  simp only [Parser.bind, h cursor pending]
  rcases p cursor pending with ⟨_ | ⟨value, after⟩, pending⟩
  · rfl
  · exact hnext value after pending

/-- A token is accepted for what it is. What is read of it alone has no place. -/
theorem moves_next {accept : Token → Option α} (hfixed : ∀ value : α, move m value = value)
    (expected : Expected) : Moves m (next accept expected) (next accept expected) := by
  rintro ⟨stop, rest⟩ pending
  have hmissed : ((none, some (Pending.offer (move m rest) expected (move m pending))) :
      Option ((α × Span) × Cursor) × Option Pending) =
        move m (none, some (Pending.offer rest expected pending)) := by
    rw [← Pending.move_offer]
    rfl
  cases rest with
  | nil => exact hmissed
  | cons lexeme rest =>
      change next accept expected ⟨m.stop stop, move m lexeme :: move m rest⟩ (move m pending) = _
      have htoken : (move m lexeme).token = lexeme.token := rfl
      simp only [next, htoken]
      cases accept lexeme.token with
      | none => exact hmissed
      | some value =>
          change _ = (some ((move m value, move m lexeme.span), _), _)
          rw [hfixed]
          rfl

theorem moves_token (expected : Token) : Moves m (token expected) (token expected) :=
  (moves_next (fun _ => rfl) _).bind fun _ => moves_pure rfl

theorem moves_select {accept : Token → Option α} (hfixed : ∀ value : α, move m value = value) :
    Moves m (select accept) (select accept) := moves_next hfixed _

theorem moves_endOfInput : Moves m endOfInput endOfInput := by
  rintro ⟨stop, _ | ⟨lexeme, rest⟩⟩ pending
  · rfl
  · change (none, some (Pending.offer (move m (lexeme :: rest)) _ (move m pending))) = _
    rw [← Pending.move_offer]
    rfl

/-- The second parser is tried for moved tokens when it is tried for the tokens. -/
theorem Moves.orElse {p' q' : Parser α} (h : Moves m p q) (h' : Moves m p' q') :
    Moves m (orElse p p') (orElse q q') := by
  intro cursor pending
  simp only [Parser.orElse, h cursor pending]
  rcases p cursor pending with ⟨_ | ⟨value, after⟩, pending⟩
  · exact h' cursor pending
  · rfl

theorem Moves.optional (h : Moves m p q) : Moves m (optional p) (optional q) := by
  intro cursor pending
  simp only [Parser.optional, h cursor pending]
  rcases p cursor pending with ⟨_ | ⟨value, after⟩, pending⟩ <;> rfl

/-- Moved tokens are as many, so that as many rounds are allowed. -/
theorem Moves.many (h : Moves m p q) : Moves m (many p) (many q) := by
  have hupTo (n : Nat) : Moves m (manyUpTo p n) (manyUpTo q n) := by
    induction n with
    | zero => exact moves_pure rfl
    | succ n ih =>
        apply h.optional.bind
        rintro (_ | value)
        · exact moves_pure rfl
        · exact ih.bind fun _ => moves_pure rfl
  intro cursor pending
  have hlength : (move m cursor).rest.length = cursor.rest.length := length_move m _
  simp only [Parser.many, hlength]
  exact hupTo _ cursor pending

theorem Moves.separated {separator separator' : Parser β} (h : Moves m p q)
    (hseparator : Moves m separator separator') :
    Moves m (separated p separator) (separated q separator') := by
  apply h.bind
  intro first
  exact (hseparator.bind fun _ => h).many.bind fun _ => moves_pure rfl

theorem Moves.separatedOrNone {separator separator' : Parser β} (h : Moves m p q)
    (hseparator : Moves m separator separator') :
    Moves m (separatedOrNone p separator) (separatedOrNone q separator') := by
  apply h.optional.bind
  rintro (_ | first)
  · exact moves_pure rfl
  · apply (hseparator.bind fun _ => h).many.bind
    intro more
    exact hseparator.optional.bind fun _ => moves_pure rfl

theorem Moves.bracketed (h : Moves m p q) (opening closing : Token) :
    Moves m
      (do
        let _ ← token opening
        let value ← p
        let _ ← token closing
        return value)
      (do
        let _ ← token opening
        let value ← q
        let _ ← token closing
        return value) := by
  apply (moves_token _).bind
  intro _
  apply h.bind
  intro value
  exact (moves_token _).bind fun _ => moves_pure rfl

/-- A construct is named for moved tokens when it is named for the tokens. -/
theorem Moves.labelled (h : Moves m p q) (construct : Construct) :
    Moves m (labelled construct p) (labelled construct q) := by
  intro cursor saved
  have hown : q (move m cursor) none = move m (p cursor none) := h cursor none
  simp only [Parser.labelled, hown]
  refine Prod.ext rfl ?_
  exact (congrArg _ (Pending.move_relabel m _ _ _).symm).trans (Pending.move_mergeOption m _ _).symm

/-- Without any token left the parser fails. -/
def NeedsToken (p : Parser α) : Prop :=
  ∀ stop pending, (p ⟨stop, []⟩ pending).1 = none

omit [Movable α] [Movable β] in
/-- What begins with a parser that needs a token needs one. -/
theorem NeedsToken.bind {p : Parser α} {next : α → Parser β} (h : NeedsToken p) :
    NeedsToken (p >>= next) := by
  intro stop pending
  change (Parser.bind p next ⟨stop, []⟩ pending).1 = none
  have hnone := h stop pending
  simp only [Parser.bind]
  split
  · rfl
  · rename_i hrun
    rw [hrun] at hnone
    cases hnone

omit [Movable α] in
theorem needsToken_next (accept : Token → Option α) (expected : Expected) :
    NeedsToken (next accept expected) := fun _ _ => rfl

/-- The places of the first and of the last token are moved apart. -/
theorem Moves.spanned (h : Moves m p q) (hneeds : NeedsToken p) :
    Moves m (spanned p) (spanned q) := by
  rintro ⟨stop, rest⟩ pending
  simp only [Parser.spanned, h ⟨stop, rest⟩ pending]
  cases rest with
  | nil =>
      have hnone := hneeds stop pending
      rcases hrun : p ⟨stop, []⟩ pending with ⟨_ | found, pending⟩
      · rfl
      · rw [hrun] at hnone
        cases hnone
  | cons lexeme rest =>
      rcases p ⟨stop, lexeme :: rest⟩ pending with ⟨_ | ⟨value, after⟩, pending⟩ <;> rfl

/-- A path is the text of its segments, whose places are dropped. -/
theorem moves_path : Moves m path path := by
  apply ((moves_select fun _ => rfl).separated (moves_token _)).bind
  intro segments
  apply moves_pure
  change _ = ".".intercalate (segments.map Prod.fst)
  congr 1
  exact List.map_map

/-- A type is read alike when its arguments are. -/
theorem moves_typeWith {inner inner' : Parser TypeRef} (h : Moves m inner inner') :
    Moves m (typeWith inner) (typeWith inner') := by
  have hargs : Moves m
      (do
        let _ ← token .lt
        let args ← Parser.separated inner (token .comma)
        let _ ← token .gt
        return args)
      (do
        let _ ← token .lt
        let args ← Parser.separated inner' (token .comma)
        let _ ← token .gt
        return args) :=
    (h.separated (moves_token _)).bracketed .lt .gt
  have hpath : NeedsToken path := ((needsToken_next _ _).bind).bind
  apply Moves.bind
  · refine Moves.spanned ?_ hpath.bind
    apply moves_path.bind
    intro path
    apply hargs.optional.bind
    rintro (_ | args) <;> exact moves_pure rfl
  · rintro ⟨⟨path, args⟩, span⟩
    exact moves_pure (TypeRef.move_eq m path args span).symm

theorem moves_typeUpTo (depth : Nat) : Moves m (typeUpTo depth) (typeUpTo depth) := by
  induction depth with
  | zero => exact moves_fail
  | succ depth ih => exact moves_typeWith ih

/-- The depth that is allowed depends on the number of tokens alone. -/
theorem moves_type : Moves m type type := by
  apply Moves.labelled
  intro cursor pending
  have hlength : (move m cursor).rest.length = cursor.rest.length := length_move m _
  simp only [hlength]
  exact moves_typeUpTo _ cursor pending

theorem moves_operator (accept : Token → Option BinaryOp) :
    Moves m (operator accept) (operator accept) :=
  (moves_select fun _ => rfl).bind fun _ => moves_pure rfl

theorem moves_name : Moves m name name := (moves_select fun _ => rfl).labelled .identifier

section Levels

variable {expr expr' : Parser Expr}

/-- Operands are joined to the same tree, each node over its moved operands. -/
theorem moves_chain {operand operand' : Parser Expr} {op op' : Parser BinaryOp}
    (h : Moves m operand operand') (hop : Moves m op op') :
    Moves m (chain operand op) (chain operand' op') := by
  apply h.bind
  intro first
  apply Moves.bind
  · apply Moves.many
    apply hop.bind
    intro op
    apply h.bind
    intro right
    exact moves_pure rfl
  · intro more
    apply moves_pure
    induction more generalizing first with
    | nil => rfl
    | cons pair more ih =>
        rw [List.foldl_cons, ← ih, Expr.move_joined]
        rfl

theorem moves_arguments (h : Moves m expr expr') : Moves m (arguments expr) (arguments expr') :=
  (h.separatedOrNone (moves_token _)).bracketed .lparen .rparen

theorem moves_call (h : Moves m expr expr') : Moves m (call expr) (call expr') := by
  have hname : NeedsToken name := fun _ _ => rfl
  apply Moves.labelled
  apply Moves.bind
  · refine Moves.spanned ?_ hname.bind
    apply moves_name.bind
    intro callee
    exact (moves_arguments h).bind fun _ => moves_pure rfl
  · rintro ⟨⟨⟨callee, calleeSpan⟩, args⟩, span⟩
    exact moves_pure (Expr.move_call m callee calleeSpan args span).symm

theorem moves_conditional (h : Moves m expr expr') :
    Moves m (conditional expr) (conditional expr') := by
  apply Moves.labelled
  apply Moves.bind
  · refine Moves.spanned ?_ (needsToken_next _ _).bind.bind
    apply (moves_token _).bind
    intro _
    apply h.bind
    intro condition
    apply (moves_token _).bind
    intro _
    apply h.bind
    intro thenBranch
    apply (moves_token _).bind
    intro _
    exact h.bind fun _ => moves_pure rfl
  · rintro ⟨⟨condition, thenBranch, elseBranch⟩, span⟩
    exact moves_pure rfl

theorem moves_parenthesised (h : Moves m expr expr') :
    Moves m (parenthesised expr) (parenthesised expr') := h.bracketed .lparen .rparen

theorem moves_atom (h : Moves m expr expr') : Moves m (atom expr) (atom expr') := by
  have hliteral : Moves m literal literal := by
    apply Moves.labelled
    apply (moves_select fun _ => rfl).bind
    rintro ⟨value, span⟩
    exact moves_pure rfl
  have hvariable : Moves m variableName variableName := moves_name.bind fun _ => moves_pure rfl
  exact hliteral.orElse <| (moves_call h).orElse <| hvariable.orElse <|
    (moves_conditional h).orElse (moves_parenthesised h)

/-- Each sign makes a node, from the place of the sign to the end of the operand. -/
theorem moves_unary (h : Moves m expr expr') : Moves m (unary expr) (unary expr') := by
  apply (moves_select fun _ => rfl).many.bind
  intro ops
  apply (moves_atom h).bind
  intro operand
  apply moves_pure
  induction ops with
  | nil => rfl
  | cons op ops ih =>
      rw [move_cons, List.foldr_cons, List.foldr_cons, ih, Expr.span_move]
      rfl

theorem moves_sum (h : Moves m expr expr') : Moves m (sum expr) (sum expr') :=
  moves_chain (moves_chain (moves_unary h) (moves_operator _)) (moves_operator _)

/-- A comparison is read alike when the expressions within it are. -/
theorem moves_comparison (h : Moves m expr expr') :
    Moves m (comparison expr) (comparison expr') := by
  apply (moves_sum h).bind
  intro left
  apply Moves.bind
  · apply Moves.optional
    apply (moves_operator _).bind
    intro op
    apply (moves_sum h).bind
    intro right
    exact moves_pure rfl
  · rintro (_ | ⟨op, right⟩)
    · exact moves_pure rfl
    · exact moves_pure (Expr.move_joined m op left right).symm

theorem moves_disjunction (h : Moves m expr expr') :
    Moves m (disjunction expr) (disjunction expr') := by
  have hword (expected : Token) (op : BinaryOp) :
      Moves m (do let _ ← token expected; return op : Parser BinaryOp)
        (do let _ ← token expected; return op) :=
    (moves_token _).bind fun _ => moves_pure rfl
  exact moves_chain (moves_chain (moves_comparison h) (hword _ _)) (hword _ _)

end Levels

/-- An expression within parentheses, arguments or branches is one of less depth. -/
theorem moves_exprUpTo (depth : Nat) : Moves m (exprUpTo depth) (exprUpTo depth) := by
  induction depth with
  | zero => exact moves_fail
  | succ depth ih => exact (moves_disjunction ih).labelled .expression

theorem moves_expr : Moves m expr expr := by
  intro cursor pending
  have hlength : (move m cursor).rest.length = cursor.rest.length := length_move m _
  simp only [expr, hlength]
  exact moves_exprUpTo _ cursor pending

theorem moves_parameter : Moves m parameter parameter := by
  apply Moves.labelled
  apply Moves.bind
  · refine Moves.spanned ?_ (needsToken_next _ _).bind
    apply (moves_select fun _ => rfl).bind
    intro name
    apply (moves_token _).bind
    intro _
    exact moves_type.bind fun _ => moves_pure rfl
  · exact fun _ => moves_pure rfl

theorem moves_params :
    Moves m (Parser.orElse noParameters parameters) (Parser.orElse noParameters parameters) := by
  apply Moves.orElse
  · exact (moves_token _).bind fun _ => moves_pure rfl
  · exact (moves_parameter.separatedOrNone (moves_token _)).bracketed .pipe .pipe

/-- A lambda is read from moved tokens as the moved lambda. -/
theorem moves_lambda : Moves m lambda lambda := by
  apply Moves.labelled
  apply moves_params.bind
  intro params
  apply (moves_token _).bind
  intro _
  apply moves_type.bind
  intro ret
  apply (moves_token _).bind
  intro brace
  apply moves_expr.bind
  intro body
  exact (moves_token _).bind fun _ => moves_pure rfl

/-- The moved tokens form the moved value, or the moved expectations are missed. -/
theorem Moves.run_eq (h : Moves m p q) (start : Nat) (tokens : List Lexeme) :
    q.run (m.stop start) (move m tokens) = move m (p.run start tokens) := by
  have hwhole : Moves m (do let value ← p; endOfInput; return value : Parser α)
      (do let value ← q; endOfInput; return value) :=
    h.bind fun _ => moves_endOfInput.bind fun _ => moves_pure rfl
  have hmoved : (do let value ← q; endOfInput; return value : Parser α)
      ⟨m.stop start, move m tokens⟩ none =
        move m ((do let value ← p; endOfInput; return value : Parser α) ⟨start, tokens⟩ none) :=
    hwhole ⟨start, tokens⟩ none
  simp only [run]
  rw [hmoved]
  rcases (do let value ← p; endOfInput; return value : Parser α) ⟨start, tokens⟩ none with
    ⟨_ | ⟨value, after⟩, pending⟩ <;> rfl

end Parser

end ExprVet.Calc
