import ExprVet.Proofs.CheckedLambda
import ExprVet.Proofs.Relocation

/-!
# Checks in other places

The checker looks at what a node is and never at where it stands. When a lambda is moved it gives
the same types and finds the same, at the places where the nodes have gone.
-/

namespace ExprVet.Calc

instance : Movable Located := ⟨fun m located => { located with span := move m located.span }⟩

instance : Movable ValueType := ⟨fun _ type => type⟩

variable (m : Relocation) (exports : Exports)

theorem move_append {α : Type} [Movable α] (xs ys : List α) :
    move m (xs ++ ys) = move m xs ++ move m ys := List.map_append

@[simp] theorem fst_move {α β : Type} [Movable α] [Movable β] (pair : α × β) :
    (move m pair).1 = move m pair.1 := rfl

@[simp] theorem snd_move {α β : Type} [Movable α] [Movable β] (pair : α × β) :
    (move m pair).2 = move m pair.2 := rfl

@[simp] theorem move_type (type : ValueType) : move m type = type := rfl

@[simp] theorem move_types (types : List ValueType) : move m types = types := List.map_id' _

mutual

/-- A moved type denotes the same type. Unknown types are found where they have gone. -/
theorem resolveType_move : ∀ ref : TypeRef,
    resolveType exports (move m ref) = move m (resolveType exports ref)
  | ⟨path, args, span⟩ => by
      rw [TypeRef.move_eq]
      by_cases hlocal : ValueType.primitive? path = none ∨ args ≠ []
      · have hlocal' : ValueType.primitive? path = none ∨ move m args ≠ [] := by
          simpa [move] using hlocal
        rw [resolveType_of_not_primitive span hlocal, resolveType_of_not_primitive _ hlocal']
        cases exports.lookup path with
        | none => rfl
        | some bases =>
            simp only
            rw [resolveTypes_move args]
            exact Prod.ext (congrArg (ValueType.named path) (move_types m _)) rfl
      · obtain ⟨hsome, hargs⟩ := not_or.mp hlocal
        obtain rfl : args = [] := not_not.mp hargs
        obtain ⟨type, htype⟩ := Option.ne_none_iff_exists'.mp hsome
        rw [resolveType_of_primitive span htype]
        exact resolveType_of_primitive _ htype

theorem resolveTypes_move : ∀ refs : List TypeRef,
    resolveTypes exports (move m refs) = move m (resolveTypes exports refs)
  | [] => rfl
  | ref :: refs => by
      rw [move_cons]
      simp only [resolveTypes]
      rw [resolveType_move ref, resolveTypes_move refs]
      exact Prod.ext rfl (move_append m _ _).symm

end

/-- Moved parameters declare the same variables. -/
theorem declare_move (declared : Variables) (params : List Param) :
    declare exports declared (move m params) =
      ((declare exports declared params).1, move m (declare exports declared params).2) := by
  induction params generalizing declared with
  | nil => rfl
  | cons param params ih =>
      have hname : (move m param).name = param.name := rfl
      have htype : resolveType exports (move m param).type =
          move m (resolveType exports param.type) := resolveType_move m exports param.type
      simp only [move_cons, declare, hname, htype, ih, fst_move, snd_move, move_type, move_append]

@[simp] theorem Expr.isZeroLiteral_move (e : Expr) :
    (move m e).isZeroLiteral = e.isZeroLiteral := by
  cases e with
  | literal value => cases value <;> rfl
  | _ => rfl

mutual

/-- A moved expression mentions variables when the expression does. -/
theorem Expr.mentionsVariable_move : ∀ e : Expr,
    (move m e).mentionsVariable = e.mentionsVariable
  | .literal _ _ => rfl
  | .ident _ _ => rfl
  | .unary _ operand _ => Expr.mentionsVariable_move operand
  | .binary _ left right _ =>
      congrArg₂ (· || ·) (Expr.mentionsVariable_move left) (Expr.mentionsVariable_move right)
  | .conditional condition thenBranch elseBranch _ =>
      congrArg₂ (· || ·) (congrArg₂ (· || ·) (Expr.mentionsVariable_move condition)
        (Expr.mentionsVariable_move thenBranch)) (Expr.mentionsVariable_move elseBranch)
  | .call callee calleeSpan args span => by
      rw [Expr.move_call]
      exact Expr.anyMentionsVariable_move args

theorem Expr.anyMentionsVariable_move : ∀ args : List Expr,
    anyMentionsVariable (move m args) = anyMentionsVariable args
  | [] => rfl
  | arg :: args =>
      congrArg₂ (· || ·) (Expr.mentionsVariable_move arg) (Expr.anyMentionsVariable_move args)

end

/-- A check that finds one thing or nothing finds it at the moved span. -/
theorem unless_move (holds : Prop) [Decidable holds] (finding : Finding) (span : Span) :
    (if holds then [] else [finding.at (move m span)]) =
      move m (if holds then ([] : List Located) else [finding.at span]) := by
  split <;> rfl

/-- An operation is checked by the types of its operands, which have no places. -/
theorem checkUnary_move (op : UnaryOp) (operand : ValueType) (span : Span) :
    checkUnary op operand (move m span) = move m (checkUnary op operand span) := by
  unfold checkUnary
  split <;> rfl

theorem checkBinary_move (op : BinaryOp) (left right : ValueType) (span : Span) :
    checkBinary op left right (move m span) = move m (checkBinary op left right span) := by
  unfold checkBinary
  repeat' split
  all_goals rfl

theorem checkBranches_move (first second : ValueType) (span : Span) :
    checkBranches exports first second (move m span) =
      move m (checkBranches exports first second span) := by
  unfold checkBranches
  repeat' split
  all_goals rfl

theorem checkCondition_move (condition : ValueType) (span : Span) :
    checkCondition condition (move m span) = move m (checkCondition condition span) :=
  unless_move ..

theorem checkArgument_move (callee : String) (position : Nat) (expected found : ValueType)
    (span : Span) : checkArgument exports callee position expected found (move m span) =
      move m (checkArgument exports callee position expected found span) := unless_move ..

theorem checkNumeric_move (callee : String) (position : Nat) (found : ValueType) (span : Span) :
    checkNumeric callee position found (move m span) =
      move m (checkNumeric callee position found span) := unless_move ..

/-- A function is checked by the types of its arguments, and tells which one is wrong at its place.
-/
theorem apply_move (builtin : Builtin) (args : List (ValueType × Span)) :
    builtin.apply exports (move m args) = move m (builtin.apply exports args) := by
  rcases args with _ | ⟨⟨first, firstSpan⟩, _ | ⟨⟨second, secondSpan⟩, _ | ⟨third, rest⟩⟩⟩
  · cases builtin <;> rfl
  · cases builtin with
    | len | upper | lower => exact Prod.ext rfl (checkArgument_move ..)
    | abs =>
        change (if first.isNumeric ∨ first = .unknown then (first, [])
          else (.unknown, checkNumeric _ 1 first (move m firstSpan)) : Checked ValueType) =
          move m (if first.isNumeric ∨ first = .unknown then (first, [])
            else (.unknown, checkNumeric _ 1 first firstSpan))
        split
        · rfl
        · exact Prod.ext rfl (checkNumeric_move ..)
    | _ => rfl
  · have hboth (callee : String) : checkNumeric callee 1 first (move m firstSpan) ++
        checkNumeric callee 2 second (move m secondSpan) =
          move m (checkNumeric callee 1 first firstSpan ++
            checkNumeric callee 2 second secondSpan) := by
      rw [move_append, checkNumeric_move, checkNumeric_move]
    cases builtin with
    | min | max =>
        simp only [Builtin.apply, move_cons, move_nil]
        change (if first = .unknown ∨ second = .unknown then _ else _) = _
        split
        · rfl
        · cases arithmetic first second with
          | some => rfl
          | none => exact Prod.ext rfl (hboth _)
    | _ => rfl
  · cases builtin <;> rfl

theorem checkCall_move (callee : String) (calleeSpan : Span) (args : List (ValueType × Span))
    (span : Span) : checkCall exports callee (move m calleeSpan) (move m args) (move m span) =
      move m (checkCall exports callee calleeSpan args span) := by
  unfold checkCall
  cases Builtin.ofName? callee with
  | none => rfl
  | some builtin =>
      simp only [length_move]
      split
      · exact apply_move m exports builtin args
      · rfl

mutual

/-- A moved expression has the same type, and what is found in it has moved along. -/
theorem infer_move (declared : Variables) : ∀ e : Expr,
    infer exports declared (move m e) = move m (infer exports declared e)
  | .literal value span => by
      cases value <;> rfl
  | .ident name span => by
      change infer exports declared (.ident name (move m span)) = _
      simp only [infer]
      split <;> rfl
  | .unary op operand span => by
      change infer exports declared (.unary op (move m operand) (move m span)) = _
      simp only [infer, infer_move declared operand, fst_move, snd_move, move_type,
        checkUnary_move, ← move_append]
      rfl
  | .binary op left right span => by
      change infer exports declared (.binary op (move m left) (move m right) (move m span)) = _
      have hdivision : (if op.divides && right.isZeroLiteral then
            [Finding.zeroDivision.at (move m right.span)] else []) =
          move m (if op.divides && right.isZeroLiteral then [Finding.zeroDivision.at right.span]
            else []) := by
        split <;> rfl
      simp only [infer, infer_move declared left, infer_move declared right, fst_move, snd_move,
        move_type, checkBinary_move, Expr.isZeroLiteral_move, Expr.span_move, hdivision,
        ← move_append]
      rfl
  | .conditional condition thenBranch elseBranch span => by
      change infer exports declared (.conditional (move m condition) (move m thenBranch)
        (move m elseBranch) (move m span)) = _
      simp only [infer, infer_move declared condition, infer_move declared thenBranch,
        infer_move declared elseBranch, fst_move, snd_move, move_type, checkBranches_move,
        checkCondition_move, Expr.span_move, ← move_append]
      rfl
  | .call callee calleeSpan args span => by
      rw [Expr.move_call]
      simp only [infer, inferAll_move declared args, fst_move, snd_move, checkCall_move,
        ← move_append]
      rfl

theorem inferAll_move (declared : Variables) : ∀ args : List Expr,
    inferAll exports declared (move m args) = move m (inferAll exports declared args)
  | [] => rfl
  | arg :: args => by
      simp only [move_cons, inferAll, infer_move declared arg, inferAll_move declared args,
        fst_move, snd_move, Expr.span_move, ← move_append]
      rfl

end

/-- The conversion of a body to its result is checked at the place of the body. -/
theorem checkBody_move (declared : Variables) (ret : ValueType) (body : Expr) :
    checkBody exports declared ret (move m body) =
      move m (checkBody exports declared ret body) := by
  have herrors (found : List Located) :
      (move m found).any Located.isError = found.any Located.isError := List.any_map
  simp only [checkBody, infer_move, fst_move, snd_move, move_type, Expr.mentionsVariable_move,
    Expr.span_move]
  rw [unless_move, ← move_append, herrors, unless_move, ← move_append]

/-- What is found in a moved lambda is what is found in the lambda, moved along. -/
theorem checkLambda_move (lambda : Lambda) :
    checkLambda exports (move m lambda) = move m (checkLambda exports lambda) := by
  have hparams : declare exports [] (move m lambda).params = _ :=
    declare_move m exports [] lambda.params
  have hret : resolveType exports (move m lambda).ret = _ := resolveType_move m exports lambda.ret
  have hbody : (move m lambda).body = move m lambda.body := rfl
  simp only [checkLambda, hparams, hret, hbody, fst_move, snd_move, move_type, checkBody_move,
    move_append]

end ExprVet.Calc
