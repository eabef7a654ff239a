import ExprVet.Proofs.Typing
import Mathlib.Data.List.Basic

/-!
# The checker follows the typing rules

A clean check of an expression whose variables have known types is a derivation of its type, and a
derivation makes the check clean. One lemma in each direction says this of every function that the
checker applies at a node; the two inductions over expressions only put them together.

## Implementation notes

The checker goes on after a mistake with an unknown type, which later tests let pass. So the
statement about a node carries both facts at once: nothing was found and the type is known.
-/

namespace ExprVet.Calc

variable {exports : Exports}

/-- Errors about a body, as against its syntax, its header or its surroundings. -/
def Finding.isBodyError : Finding → Bool
  | syntaxError _ | unknownType _ | zeroDivision | missingNamespace _ | constant => false
  | _ => true

/-- The codes of errors about a body: `E1xx`, `E2xx` and `E300`. -/
def isBodyErrorCode (code : String) : Bool :=
  ['E', '1'].isPrefixOf code.toList || ['E', '2'].isPrefixOf code.toList || code == "E300"

theorem isBodyErrorCode_code (finding : Finding) :
    isBodyErrorCode finding.code = finding.isBodyError := by
  cases finding <;> simp only [Finding.code, Finding.isBodyError] <;> decide

/-- Nothing found is an error about the body. -/
def Clean (found : List Located) : Prop := ∀ located ∈ found, located.finding.isBodyError = false

@[simp] theorem clean_nil : Clean [] := by
  simp [Clean]

@[simp] theorem clean_append (xs ys : List Located) : Clean (xs ++ ys) ↔ Clean xs ∧ Clean ys := by
  simp only [Clean, List.mem_append]
  constructor
  · intro h
    exact ⟨fun l hl => h l (.inl hl), fun l hl => h l (.inr hl)⟩
  · rintro ⟨hx, hy⟩ l (hl | hl)
    · exact hx l hl
    · exact hy l hl

@[simp] theorem clean_at (finding : Finding) (span : Span) :
    Clean [finding.at span] ↔ finding.isBodyError = false := by
  simp [Clean, Finding.at]

theorem isNumeric_iff (type : ValueType) : type.isNumeric = true ↔ Numeric type := by
  constructor
  · intro h
    cases type with
    | int => exact .int
    | float => exact .float
    | _ => cases h
  · rintro (_ | _) <;> rfl

theorem ArithmeticRule.numeric {left right type : ValueType} (h : ArithmeticRule left right type) :
    Numeric left ∧ Numeric right ∧ Numeric type := by
  cases h with
  | int => exact ⟨.int, .int, .int⟩
  | float hl hr _ => exact ⟨hl, hr, .float⟩

theorem arithmetic_eq_some_iff {left right type : ValueType} :
    arithmetic left right = some type ↔ ArithmeticRule left right type := by
  constructor
  · intro h
    unfold arithmetic at h
    split at h
    · cases h
      exact .int
    · rename_i hints
      split at h
      · rename_i hnum
        cases h
        rw [Bool.and_eq_true, isNumeric_iff, isNumeric_iff] at hnum
        exact .float hnum.1 hnum.2 fun he => hints he.1 he.2
      · cases h
  · intro h
    cases h with
    | int => rfl
    | float hl hr hints =>
        cases hl <;> cases hr <;> first | rfl | exact absurd ⟨rfl, rfl⟩ hints

theorem not_arithmeticRule_str {right type : ValueType} : ¬ ArithmeticRule .str right type := by
  intro h
  cases h.numeric.1

theorem comparable_iff {left right : ValueType} :
    (left = right || (left.isNumeric && right.isNumeric) || left = .any || right = .any) = true ↔
      left = right ∨ (Numeric left ∧ Numeric right) ∨ left = .any ∨ right = .any := by
  simp only [Bool.or_eq_true, Bool.and_eq_true, decide_eq_true_iff, isNumeric_iff, or_assoc]

theorem ordered_iff {left right : ValueType} :
    ((left.isNumeric && right.isNumeric) || (left = .str && right = .str)) = true ↔
      (Numeric left ∧ Numeric right) ∨ (left = .str ∧ right = .str) := by
  simp only [Bool.or_eq_true, Bool.and_eq_true, decide_eq_true_iff, isNumeric_iff]

theorem logical_iff {left right : ValueType} :
    (left = .bool && right = .bool) = true ↔ left = .bool ∧ right = .bool := by
  simp only [Bool.and_eq_true, decide_eq_true_iff]

/-- The operator tables and the rules for operators are the same. -/
theorem result_eq_some_iff {op : BinaryOp} {left right type : ValueType} :
    op.result left right = some type ↔ BinaryRule op left right type := by
  constructor
  · intro h
    cases op with
    | add =>
        simp only [BinaryOp.result] at h
        split at h
        · rename_i hstr
          cases h
          obtain ⟨rfl, rfl⟩ := hstr
          exact .concat
        · exact .arithmetic (by simp) (arithmetic_eq_some_iff.mp h)
    | sub | mul | div | rem => exact .arithmetic (by simp) (arithmetic_eq_some_iff.mp h)
    | eq | notEq =>
        obtain ⟨hholds, heq⟩ := Option.ite_none_right_eq_some.mp h
        cases heq
        exact .equality (by simp) (comparable_iff.mp hholds)
    | lt | gt | ltEq | gtEq =>
        obtain ⟨hholds, heq⟩ := Option.ite_none_right_eq_some.mp h
        cases heq
        exact .ordering (by simp) (ordered_iff.mp hholds)
    | and | or =>
        obtain ⟨hholds, heq⟩ := Option.ite_none_right_eq_some.mp h
        cases heq
        obtain ⟨rfl, rfl⟩ := logical_iff.mp hholds
        exact .logic (by simp)
  · intro h
    cases h with
    | concat => rfl
    | arithmetic hop h =>
        have hsome := arithmetic_eq_some_iff.mpr h
        simp only [List.mem_cons, List.not_mem_nil, or_false] at hop
        rcases hop with rfl | rfl | rfl | rfl | rfl
        · rw [BinaryOp.result, if_neg]
          · exact hsome
          · rintro ⟨rfl, -⟩
            exact not_arithmeticRule_str h
        all_goals exact hsome
    | equality hop h =>
        have hholds := comparable_iff.mpr h
        simp only [List.mem_cons, List.not_mem_nil, or_false] at hop
        rcases hop with rfl | rfl <;> exact if_pos hholds
    | ordering hop h =>
        have hholds := ordered_iff.mpr h
        simp only [List.mem_cons, List.not_mem_nil, or_false] at hop
        rcases hop with rfl | rfl | rfl | rfl <;> exact if_pos hholds
    | logic hop =>
        simp only [List.mem_cons, List.not_mem_nil, or_false] at hop
        rcases hop with rfl | rfl <;> rfl

theorem unaryRule_of_clean {op : UnaryOp} {type : ValueType} {span : Span} (ht : type ≠ .unknown)
    (h : Clean (checkUnary op type span).2) : UnaryRule op type (checkUnary op type span).1 := by
  unfold checkUnary at h ⊢
  split
  · exact absurd rfl ht
  · exact .neg .int
  · exact .neg .float
  · exact .not
  · simp [Finding.isBodyError] at h

theorem checkUnary_eq {op : UnaryOp} {type result : ValueType} (h : UnaryRule op type result)
    (span : Span) : checkUnary op type span = (result, []) := by
  cases h with
  | neg hnum => cases hnum <;> rfl
  | not => rfl

theorem binaryRule_of_clean {op : BinaryOp} {left right : ValueType} {span : Span}
    (hl : left ≠ .unknown) (hr : right ≠ .unknown) (h : Clean (checkBinary op left right span).2) :
    BinaryRule op left right (checkBinary op left right span).1 := by
  unfold checkBinary at h ⊢
  rw [if_neg (not_or.mpr ⟨hl, hr⟩)] at h ⊢
  split
  · exact result_eq_some_iff.mp ‹_›
  · simp_all [Finding.isBodyError]

theorem checkBinary_eq {op : BinaryOp} {left right result : ValueType}
    (h : BinaryRule op left right result) (hl : left ≠ .unknown) (hr : right ≠ .unknown)
    (span : Span) : checkBinary op left right span = (result, []) := by
  rw [checkBinary, if_neg (not_or.mpr ⟨hl, hr⟩), result_eq_some_iff.mpr h]

theorem commonType_of_clean {first second : ValueType} {span : Span} (hf : first ≠ .unknown)
    (hs : second ≠ .unknown) (h : Clean (checkBranches exports first second span).2) :
    CommonType exports first second (checkBranches exports first second span).1 := by
  unfold checkBranches at h ⊢
  rw [if_neg hf] at h ⊢
  split
  · rename_i heq
    exact heq.resolve_left hs ▸ .same _
  · rename_i hne
    have hne : first ≠ second := fun he => hne (.inr he)
    rw [if_neg (not_or.mpr ⟨hs, hne⟩)] at h
    split
    · rename_i hnum
      rw [Bool.and_eq_true, isNumeric_iff, isNumeric_iff] at hnum
      exact .mixed hnum.1 hnum.2 hne
    · rename_i hnum
      rw [if_neg hnum] at h
      rw [Bool.and_eq_true, isNumeric_iff, isNumeric_iff] at hnum
      split
      · rename_i hto
        exact .second hne hnum ((assignable_eq_true_iff hf hs).mp hto)
      · rename_i hto
        rw [if_neg hto] at h
        rw [assignable_eq_true_iff hf hs] at hto
        split
        · rename_i hback
          exact .first hne hnum hto ((assignable_eq_true_iff hs hf).mp hback)
        · rename_i hback
          simp [if_neg hback, Finding.isBodyError] at h

theorem checkBranches_eq {first second type : ValueType} (hf : first ≠ .unknown)
    (hs : second ≠ .unknown) (h : CommonType exports first second type) (span : Span) :
    checkBranches exports first second span = (type, []) := by
  unfold checkBranches
  rw [if_neg hf]
  cases h with
  | same => rw [if_pos (.inr rfl)]
  | mixed hfnum hsnum hne =>
      rw [if_neg (not_or.mpr ⟨hs, hne⟩), if_pos]
      rw [Bool.and_eq_true, isNumeric_iff, isNumeric_iff]
      exact ⟨hfnum, hsnum⟩
  | second hne hnum hto =>
      rw [if_neg (not_or.mpr ⟨hs, hne⟩), if_neg, if_pos ((assignable_eq_true_iff hf hs).mpr hto)]
      rwa [Bool.and_eq_true, isNumeric_iff, isNumeric_iff]
  | first hne hnum hto hback =>
      rw [if_neg (not_or.mpr ⟨hs, hne⟩), if_neg, if_neg,
        if_pos ((assignable_eq_true_iff hs hf).mpr hback)]
      · rwa [assignable_eq_true_iff hf hs]
      · rwa [Bool.and_eq_true, isNumeric_iff, isNumeric_iff]

theorem clean_checkCondition_iff {condition : ValueType} {span : Span}
    (h : condition ≠ .unknown) : Clean (checkCondition condition span) ↔ condition = .bool := by
  unfold checkCondition
  split
  · rename_i hbool
    simp [hbool.resolve_right h]
  · rename_i hne
    simp only [clean_at, Finding.isBodyError]
    exact ⟨nofun, fun he => absurd (.inl he) hne⟩

theorem ofName?_eq_some_iff {name : String} {builtin : Builtin} :
    Builtin.ofName? name = some builtin ↔ name = builtin.text := by
  constructor
  · intro h
    unfold Builtin.ofName? at h
    split at h <;> cases h <;> rfl
  · rintro rfl
    exact Builtin.ofName?_text builtin

theorem clean_checkArgument_str_iff {callee : String} {position : Nat} {found : ValueType}
    {span : Span} (h : found ≠ .unknown) :
    Clean (checkArgument exports callee position .str found span) ↔ found = .str := by
  have hto : exports.assignable found .str = true ↔ found = .str := by
    have hstr : ValueType.str ≠ .unknown := by simp
    rw [assignable_eq_true_iff h hstr]
    constructor
    · intro hto
      cases hto
      rfl
    · rintro rfl
      exact .refl _
  unfold checkArgument
  split
  · simp_all
  · simp_all [Finding.isBodyError]

theorem clean_checkNumeric_iff {callee : String} {position : Nat} {found : ValueType}
    {span : Span} : Clean (checkNumeric callee position found span) ↔ Numeric found := by
  unfold checkNumeric
  rw [← isNumeric_iff]
  split
  · simp_all
  · simp_all [Finding.isBodyError]

theorem arithmetic_isSome_of_numeric {left right : ValueType} (hl : Numeric left)
    (hr : Numeric right) : ∃ type, arithmetic left right = some type := by
  cases hl <;> cases hr <;> exact ⟨_, rfl⟩

/-- A call with as many arguments as the builtin takes, all of known types, is clean by a rule. -/
theorem callRule_of_clean_apply {builtin : Builtin} {args : List (ValueType × Span)}
    (hlen : args.length = builtin.arity) (hknown : ∀ arg ∈ args, arg.1 ≠ .unknown)
    (h : Clean (builtin.apply exports args).2) :
    CallRule builtin.text (args.map Prod.fst) (builtin.apply exports args).1 := by
  cases builtin with
  | len | upper | lower =>
      obtain ⟨⟨type, span⟩, rfl⟩ := List.length_eq_one_iff.mp hlen
      have htype : type ≠ .unknown := hknown (type, span) List.mem_cons_self
      simp only [Builtin.apply, clean_checkArgument_str_iff htype] at h
      subst h
      constructor
  | str =>
      obtain ⟨⟨type, span⟩, rfl⟩ := List.length_eq_one_iff.mp hlen
      exact .str type
  | abs =>
      obtain ⟨⟨type, span⟩, rfl⟩ := List.length_eq_one_iff.mp hlen
      have htype : type ≠ .unknown := hknown (type, span) List.mem_cons_self
      simp only [Builtin.apply] at h ⊢
      split
      · rename_i hnum
        exact .abs ((isNumeric_iff type).mp (hnum.resolve_right htype))
      · rename_i hnum
        rw [if_neg hnum, clean_checkNumeric_iff, ← isNumeric_iff] at h
        exact absurd (.inl h) hnum
  | min | max =>
      obtain ⟨⟨left, leftSpan⟩, ⟨right, rightSpan⟩, rfl⟩ := List.length_eq_two.mp hlen
      have hl : left ≠ .unknown := hknown (left, leftSpan) (by simp)
      have hr : right ≠ .unknown := hknown (right, rightSpan) (by simp)
      simp only [Builtin.apply, if_neg (not_or.mpr ⟨hl, hr⟩)] at h ⊢
      cases harith : arithmetic left right with
      | some type =>
          have hrule := arithmetic_eq_some_iff.mp harith
          constructor
          exact hrule
      | none =>
          simp only [harith, clean_append, clean_checkNumeric_iff] at h
          obtain ⟨type, htype⟩ := arithmetic_isSome_of_numeric h.1 h.2
          rw [harith] at htype
          cases htype

theorem callRule_of_clean {callee : String} {calleeSpan span : Span}
    {args : List (ValueType × Span)} (hknown : ∀ arg ∈ args, arg.1 ≠ .unknown)
    (h : Clean (checkCall exports callee calleeSpan args span).2) :
    CallRule callee (args.map Prod.fst) (checkCall exports callee calleeSpan args span).1 := by
  unfold checkCall at h ⊢
  cases hname : Builtin.ofName? callee with
  | none => simp [hname, Finding.isBodyError] at h
  | some builtin =>
      obtain rfl := ofName?_eq_some_iff.mp hname
      simp only [hname] at h ⊢
      split
      · rename_i hlen
        rw [if_pos hlen] at h
        exact callRule_of_clean_apply hlen hknown h
      · rename_i hlen
        simp [if_neg hlen, Finding.isBodyError] at h

/-- A call that a rule admits has the type of the rule and nothing is found in it. -/
theorem checkCall_eq {callee : String} {args : List (ValueType × Span)} {type : ValueType}
    (h : CallRule callee (args.map Prod.fst) type) (calleeSpan span : Span) :
    checkCall exports callee calleeSpan args span = (type, []) := by
  generalize htypes : args.map Prod.fst = types at h
  cases h with
  | len | upper | lower | str =>
      obtain ⟨⟨found, at_⟩, rfl, rfl⟩ := List.map_eq_singleton_iff.mp htypes
      rfl
  | abs hnum =>
      obtain ⟨⟨found, at_⟩, rfl, rfl⟩ := List.map_eq_singleton_iff.mp htypes
      cases hnum <;> rfl
  | min harith | max harith =>
      obtain ⟨⟨left, leftSpan⟩, rest, rfl, rfl, hrest⟩ := List.map_eq_cons_iff.mp htypes
      obtain ⟨⟨right, rightSpan⟩, rfl, rfl⟩ := List.map_eq_singleton_iff.mp hrest
      cases harith with
      | int => rfl
      | float hl hr hints =>
          cases hl <;> cases hr <;> first | rfl | exact absurd ⟨rfl, rfl⟩ hints

theorem Numeric.ne_unknown {type : ValueType} (h : Numeric type) : type ≠ .unknown := by
  cases h <;> simp

theorem UnaryRule.ne_unknown {op : UnaryOp} {operand type : ValueType}
    (h : UnaryRule op operand type) : type ≠ .unknown := by
  cases h with
  | neg hnum => exact hnum.ne_unknown
  | not => simp

theorem BinaryRule.ne_unknown {op : BinaryOp} {left right type : ValueType}
    (h : BinaryRule op left right type) : type ≠ .unknown := by
  cases h with
  | arithmetic _ h => exact h.numeric.2.2.ne_unknown
  | _ => simp

theorem CommonType.ne_unknown {first second type : ValueType}
    (h : CommonType exports first second type) (hf : first ≠ .unknown) (hs : second ≠ .unknown) :
    type ≠ .unknown := by
  cases h with
  | same => exact hf
  | mixed => simp
  | second => exact hs
  | first => exact hf

theorem CallRule.ne_unknown {callee : String} {types : List ValueType} {type : ValueType}
    (h : CallRule callee types type) : type ≠ .unknown := by
  cases h with
  | abs hnum => exact hnum.ne_unknown
  | min h | max h => exact h.numeric.2.2.ne_unknown
  | _ => simp

/-- Every declared variable has a type that is known. -/
def Known (declared : Variables) : Prop := ∀ name, declared.lookup name ≠ some .unknown

/-- The declared variables as the typing rules ask for them. -/
def Variables.declares (declared : Variables) (name : String) (type : ValueType) : Prop :=
  declared.lookup name = some type

mutual

/-- A clean check is a derivation of the type that it yields. -/
theorem hasType_of_clean {declared : Variables} (hdeclared : Known declared) :
    ∀ expr : Expr, Clean (infer exports declared expr).2 →
      HasType exports declared.declares expr
        (infer exports declared expr).1 ∧ (infer exports declared expr).1 ≠ .unknown
  | .literal (.int value) span, _ => ⟨.int value span, by simp [infer]⟩
  | .literal (.float value) span, _ => ⟨.float value span, by simp [infer]⟩
  | .literal (.str value) span, _ => ⟨.str value span, by simp [infer]⟩
  | .literal (.bool value) span, _ => ⟨.bool value span, by simp [infer]⟩
  | .ident name span, h => by
      simp only [infer] at h ⊢
      split
      · rename_i type hlookup
        exact ⟨.ident span hlookup, fun he => hdeclared name (he ▸ hlookup)⟩
      · rename_i hlookup
        simp [hlookup, Finding.isBodyError] at h
  | .unary op operand span, h => by
      simp only [infer, clean_append] at h ⊢
      obtain ⟨htype, hknown⟩ := hasType_of_clean hdeclared operand h.1
      have hrule := unaryRule_of_clean hknown h.2
      exact ⟨.unary span htype hrule, hrule.ne_unknown⟩
  | .binary op left right span, h => by
      simp only [infer, clean_append] at h ⊢
      obtain ⟨⟨⟨hleft, hright⟩, -⟩, hop⟩ := h
      obtain ⟨hl, hlknown⟩ := hasType_of_clean hdeclared left hleft
      obtain ⟨hr, hrknown⟩ := hasType_of_clean hdeclared right hright
      have hrule := binaryRule_of_clean hlknown hrknown hop
      exact ⟨.binary span hl hr hrule, hrule.ne_unknown⟩
  | .conditional condition thenBranch elseBranch span, h => by
      simp only [infer, clean_append] at h ⊢
      obtain ⟨⟨⟨⟨hcondition, hbool⟩, hthen⟩, helse⟩, hbranches⟩ := h
      obtain ⟨hc, hcknown⟩ := hasType_of_clean hdeclared condition hcondition
      obtain ⟨ht, htknown⟩ := hasType_of_clean hdeclared thenBranch hthen
      obtain ⟨he, heknown⟩ := hasType_of_clean hdeclared elseBranch helse
      rw [clean_checkCondition_iff hcknown] at hbool
      have hrule := commonType_of_clean htknown heknown hbranches
      exact ⟨.conditional span (hbool ▸ hc) ht he hrule, hrule.ne_unknown htknown heknown⟩
  | .call callee calleeSpan args span, h => by
      simp only [infer, clean_append] at h ⊢
      obtain ⟨htypes, hknown⟩ := hasTypes_of_clean hdeclared args h.1
      have hrule := callRule_of_clean hknown h.2
      exact ⟨.call calleeSpan span htypes hrule, hrule.ne_unknown⟩

theorem hasTypes_of_clean {declared : Variables} (hdeclared : Known declared) :
    ∀ args : List Expr, Clean (inferAll exports declared args).2 →
      HasTypes exports declared.declares args
        ((inferAll exports declared args).1.map Prod.fst) ∧
          ∀ arg ∈ (inferAll exports declared args).1, arg.1 ≠ .unknown
  | [], _ => ⟨.nil, by simp [inferAll]⟩
  | arg :: args, h => by
      simp only [inferAll, clean_append] at h ⊢
      obtain ⟨htype, hknown⟩ := hasType_of_clean hdeclared arg h.1
      obtain ⟨htypes, hallKnown⟩ := hasTypes_of_clean hdeclared args h.2
      refine ⟨.cons htype htypes, ?_⟩
      intro found hfound
      rcases List.mem_cons.mp hfound with rfl | hfound
      · exact hknown
      · exact hallKnown found hfound

end

mutual

/-- A derivation makes the check clean and the checker yield its type. -/
theorem infer_of_hasType {declared : Variables} (hdeclared : Known declared) :
    ∀ (expr : Expr) {type : ValueType}, HasType exports declared.declares expr type →
      (infer exports declared expr).1 = type ∧ Clean (infer exports declared expr).2
  | .literal (.int _) _, _, .int _ _ => ⟨rfl, clean_nil⟩
  | .literal (.float _) _, _, .float _ _ => ⟨rfl, clean_nil⟩
  | .literal (.str _) _, _, .str _ _ => ⟨rfl, clean_nil⟩
  | .literal (.bool _) _, _, .bool _ _ => ⟨rfl, clean_nil⟩
  | .ident name span, _, .ident _ hlookup => by
      rw [Variables.declares] at hlookup
      simp [infer, hlookup]
  | .unary op operand span, _, .unary _ ho hrule => by
      obtain ⟨rfl, hclean⟩ := infer_of_hasType hdeclared operand ho
      simp [infer, checkUnary_eq hrule, hclean]
  | .binary op left right span, _, .binary _ hl hr hrule => by
      obtain ⟨rfl, hlclean⟩ := infer_of_hasType hdeclared left hl
      obtain ⟨rfl, hrclean⟩ := infer_of_hasType hdeclared right hr
      have hlknown := (hasType_of_clean hdeclared left hlclean).2
      have hrknown := (hasType_of_clean hdeclared right hrclean).2
      simp only [infer, checkBinary_eq hrule hlknown hrknown, clean_append, clean_nil, hlclean,
        hrclean, true_and, and_true]
      split <;> simp [Finding.isBodyError]
  | .conditional condition thenBranch elseBranch span, _, .conditional _ hc ht he hrule => by
      obtain ⟨hbool, hcclean⟩ := infer_of_hasType hdeclared condition hc
      obtain ⟨rfl, htclean⟩ := infer_of_hasType hdeclared thenBranch ht
      obtain ⟨rfl, heclean⟩ := infer_of_hasType hdeclared elseBranch he
      have htknown := (hasType_of_clean hdeclared thenBranch htclean).2
      have heknown := (hasType_of_clean hdeclared elseBranch heclean).2
      simp [infer, hbool, checkCondition, checkBranches_eq htknown heknown hrule, hcclean, htclean,
        heclean]
  | .call callee calleeSpan args span, _, .call _ _ ha hrule => by
      obtain ⟨rfl, hclean⟩ := inferAll_of_hasTypes hdeclared args ha
      simp [infer, checkCall_eq hrule, hclean]

theorem inferAll_of_hasTypes {declared : Variables} (hdeclared : Known declared) :
    ∀ (args : List Expr) {types : List ValueType}, HasTypes exports declared.declares args types →
      (inferAll exports declared args).1.map Prod.fst = types ∧
        Clean (inferAll exports declared args).2
  | [], _, .nil => ⟨rfl, clean_nil⟩
  | arg :: args, _, .cons h hs => by
      obtain ⟨rfl, hclean⟩ := infer_of_hasType hdeclared arg h
      obtain ⟨rfl, hallClean⟩ := inferAll_of_hasTypes hdeclared args hs
      simp [inferAll, hclean, hallClean]

end

theorem arithmetic_ne_named {left right : ValueType} (name : String) (args : List ValueType) :
    arithmetic left right ≠ some (.named name args) := by
  intro h
  obtain ⟨-, -, hnum⟩ := (arithmetic_eq_some_iff.mp h).numeric
  cases hnum

theorem checkUnary_ne_named (op : UnaryOp) (operand : ValueType) (span : Span) (name : String)
    (args : List ValueType) : (checkUnary op operand span).1 ≠ .named name args := by
  unfold checkUnary
  split <;> simp

theorem checkBinary_ne_named (op : BinaryOp) (left right : ValueType) (span : Span) (name : String)
    (args : List ValueType) : (checkBinary op left right span).1 ≠ .named name args := by
  unfold checkBinary
  split
  · cases op <;> simp [BinaryOp.unknownResult]
  · split
    · rename_i hresult
      rintro rfl
      cases result_eq_some_iff.mp hresult with
      | arithmetic _ hrule => exact arithmetic_ne_named _ _ (arithmetic_eq_some_iff.mpr hrule)
    · simp

/-- The common type of two branches is built in, unknown or the type of one of them. -/
theorem checkBranches_named {thenType elseType : ValueType} {span : Span} {name : String}
    {args : List ValueType}
    (h : (checkBranches exports thenType elseType span).1 = .named name args) :
    thenType = .named name args ∨ elseType = .named name args := by
  unfold checkBranches at h
  repeat' split at h
  all_goals first | exact .inl h | exact .inr h | cases h

theorem apply_ne_named (builtin : Builtin) (args : List (ValueType × Span)) (name : String)
    (nameArgs : List ValueType) : (builtin.apply exports args).1 ≠ .named name nameArgs := by
  unfold Builtin.apply
  split
  case h_5 =>
    split
    · rename_i hnum
      rintro rfl
      simp [ValueType.isNumeric] at hnum
    · simp
  case h_6 | h_7 =>
    split
    · simp
    · split
      · rename_i harith
        rintro rfl
        exact arithmetic_ne_named _ _ harith
      · simp
  all_goals simp

theorem checkCall_ne_named (callee : String) (calleeSpan : Span) (args : List (ValueType × Span))
    (span : Span) (name : String) (nameArgs : List ValueType) :
    (checkCall exports callee calleeSpan args span).1 ≠ .named name nameArgs := by
  unfold checkCall
  split
  · simp
  · split
    · exact apply_ne_named _ args name nameArgs
    · simp

/-- An expression of an exported type has the very type of a variable. -/
theorem exists_lookup_of_infer_named {declared : Variables} {name : String} {args : List ValueType} :
    ∀ expr : Expr, (infer exports declared expr).1 = .named name args →
      ∃ variableName, declared.lookup variableName = some (.named name args)
  | .literal value span, h => by
      cases value <;> cases h
  | .ident variableName span, h => by
      simp only [infer] at h
      split at h
      · rename_i hlookup
        exact ⟨variableName, h ▸ hlookup⟩
      · cases h
  | .unary op operand span, h => (checkUnary_ne_named _ _ _ _ _ h).elim
  | .binary op left right span, h => (checkBinary_ne_named _ _ _ _ _ _ h).elim
  | .conditional condition thenBranch elseBranch span, h => by
      rcases checkBranches_named h with h | h
      · exact exists_lookup_of_infer_named thenBranch h
      · exact exists_lookup_of_infer_named elseBranch h
  | .call callee calleeSpan args span, h => (checkCall_ne_named _ _ _ _ _ _ h).elim

end ExprVet.Calc
