import ExprVet.Proofs.Grammar

/-!
# Expressions read from left to right

An else branch may end before an operator or go on with it, so the grammar derives some tokens in
several ways. Read from left to right there is one way: an operator goes to the innermost expression
that can take it. Products, sums and logical operators can always be taken, but an expression takes
a single comparison between two logical operators. So the comparisons that can still be taken are
counted, and whatever derives from the grammar is read with this count.
-/

namespace ExprVet.Calc

/-- What is read next. Of the comparisons that can be taken before the next logical operator,
`spare` in all, `outer` are left for the expressions around the innermost one. -/
inductive Stage where
  | operand (outer spare : Nat)
  | after (outer spare : Nat)
  /-- An operand that takes no operator behind it into itself. -/
  | primary
  /-- At least one argument, with commas between them. -/
  | arguments
  /-- Any number of arguments and possibly a last comma. -/
  | argumentList

/-- Whether the operators of a level are looser than comparisons, or comparisons themselves. -/
def Level.isLoose : Level → Bool
  | disjunction | conjunction | comparison => true
  | sum | product | unary | atom => false

/-- Tokens in the order in which they are read. An else branch leaves all comparisons that could be
taken to the expressions around it and can take one itself. -/
inductive Scans : Stage → List Token → Prop
  | sign {outer spare : Nat} {before : Token} {op : UnaryOp} {rest : List Token}
      (hop : Parser.prefixToken before = some op) (h : Scans (.operand outer spare) rest) :
      Scans (.operand outer spare) (before :: rest)
  | branch {outer spare : Nat} {inCondition inThen rest : List Token}
      (hcondition : Scans (.operand 0 1) inCondition) (hthen : Scans (.operand 0 1) inThen)
      (h : Scans (.operand spare (spare + 1)) rest) :
      Scans (.operand outer spare)
        (.kwIf :: (inCondition ++ .kwThen :: (inThen ++ .kwElse :: rest)))
  | primary {outer spare : Nat} {read rest : List Token} (hread : Scans .primary read)
      (h : Scans (.after outer spare) rest) : Scans (.operand outer spare) (read ++ rest)
  | stop {outer spare : Nat} : Scans (.after outer spare) []
  | tight {outer spare : Nat} {level : Level} {between : Token} {op : BinaryOp} {rest : List Token}
      (hlevel : level.isLoose = false) (hop : level.operator between = some op)
      (h : Scans (.operand outer spare) rest) : Scans (.after outer spare) (between :: rest)
  | compare {outer spare : Nat} {between : Token} {op : BinaryOp} {rest : List Token}
      (hop : Parser.comparisonToken between = some op) (h : Scans (.operand spare spare) rest) :
      Scans (.after outer (spare + 1)) (between :: rest)
  | logical {outer spare : Nat} {level : Level} {between : Token} {op : BinaryOp}
      {rest : List Token} (hlevel : level.isLoose = true) (hop : level.operator between = some op)
      (h : Scans (.operand outer (outer + 1)) rest) : Scans (.after outer spare) (between :: rest)
  | literal {token : Token} {value : Literal} (h : Parser.literalToken token = some value) :
      Scans .primary [token]
  | ident {name : String} : Scans .primary [.ident name]
  | call {callee : String} {read : List Token} (h : Scans .argumentList read) :
      Scans .primary (.ident callee :: .lparen :: (read ++ [.rparen]))
  | parenthesised {read : List Token} (h : Scans (.operand 0 1) read) :
      Scans .primary (.lparen :: (read ++ [.rparen]))
  | argument {read : List Token} (h : Scans (.operand 0 1) read) : Scans .arguments read
  | moreArguments {read reads : List Token} (h : Scans (.operand 0 1) read)
      (hargs : Scans .arguments reads) : Scans .arguments (read ++ .comma :: reads)
  | noArguments : Scans .argumentList []
  | someArguments {read : List Token} (h : Scans .arguments read) : Scans .argumentList read
  | lastComma {read : List Token} (h : Scans .arguments read) :
      Scans .argumentList (read ++ [.comma])

/-- At least as many comparisons can be taken. -/
inductive Stage.Le : Stage → Stage → Prop
  | refl (stage : Stage) : Le stage stage
  | operand {outer spare outer' spare' : Nat} (houter : outer ≤ outer') (hspare : spare ≤ spare') :
      Le (.operand outer spare) (.operand outer' spare')
  | after {outer spare outer' spare' : Nat} (houter : outer ≤ outer') (hspare : spare ≤ spare') :
      Le (.after outer spare) (.after outer' spare')

theorem Scans.mono {stage stage' : Stage} {tokens : List Token} (h : Scans stage tokens)
    (hle : stage.Le stage') : Scans stage' tokens := by
  induction h generalizing stage' with
  | sign hop h ih =>
      cases hle with
      | refl => exact .sign hop h
      | operand houter hspare => exact .sign hop (ih (.operand houter hspare))
  | branch hcondition hthen h _ _ ih =>
      cases hle with
      | refl => exact .branch hcondition hthen h
      | operand _ hspare =>
          exact .branch hcondition hthen (ih (.operand hspare (Nat.succ_le_succ hspare)))
  | primary hread h _ ih =>
      cases hle with
      | refl => exact .primary hread h
      | operand houter hspare => exact .primary hread (ih (.after houter hspare))
  | stop => cases hle <;> exact .stop
  | tight hlevel hop h ih =>
      cases hle with
      | refl => exact .tight hlevel hop h
      | after houter hspare => exact .tight hlevel hop (ih (.operand houter hspare))
  | compare hop h ih =>
      cases hle with
      | refl => exact .compare hop h
      | after _ hspare =>
          obtain ⟨more, rfl⟩ := Nat.exists_eq_add_one.mpr (Nat.zero_lt_of_lt hspare)
          have hmore := Nat.le_of_succ_le_succ hspare
          exact .compare hop (ih (.operand hmore hmore))
  | logical hlevel hop h ih =>
      cases hle with
      | refl => exact .logical hlevel hop h
      | after houter _ =>
          exact .logical hlevel hop (ih (.operand houter (Nat.succ_le_succ houter)))
  | literal h => cases hle; exact .literal h
  | ident => cases hle; exact .ident
  | call h => cases hle; exact .call h
  | parenthesised h => cases hle; exact .parenthesised h
  | argument h => cases hle; exact .argument h
  | moreArguments h hargs => cases hle; exact .moreArguments h hargs
  | noArguments => cases hle; exact .noArguments
  | someArguments h => cases hle; exact .someArguments h
  | lastComma h => cases hle; exact .lastComma h

/-- The tokens can stand wherever an operand can. -/
def Operand (read : List Token) : Prop :=
  ∀ outer spare rest, outer ≤ spare → Scans (.after outer spare) rest →
    Scans (.operand outer spare) (read ++ rest)

/-- The tokens can stand at the beginning of an expression. -/
def Beginning (read : List Token) : Prop :=
  ∀ outer rest, Scans (.after outer outer) rest → Scans (.operand outer (outer + 1)) (read ++ rest)

theorem Operand.beginning {read : List Token} (h : Operand read) : Beginning read := by
  intro outer rest hrest
  have hle : (Stage.after outer outer).Le (.after outer (outer + 1)) :=
    .after (Nat.le_refl outer) (Nat.le_succ outer)
  exact h outer (outer + 1) rest (Nat.le_succ outer) (hrest.mono hle)

theorem Beginning.scans {read : List Token} (h : Beginning read) : Scans (.operand 0 1) read := by
  have hread := h 0 [] .stop
  rwa [List.append_nil] at hread

theorem operand_of_primary {read : List Token} (h : Scans .primary read) : Operand read :=
  fun _ _ _ _ hrest => .primary h hrest

/-- Where tokens of a kind can be read. -/
def Phrase.Scanned : Phrase → List Token → Prop
  | .expr level _, read => if level.isLoose then Beginning read else Operand read
  | .arguments _, read => Scans .arguments read
  | .argumentList _, read => Scans .argumentList read

theorem scanned_of_operand {level : Level} {e e' : Expr} {read : List Token}
    (h : (Phrase.expr level.operand e).Scanned read) : (Phrase.expr level e').Scanned read := by
  cases level with
  | comparison => exact Operand.beginning h
  | _ => exact h

theorem Derives.scanned {read : List Lexeme} {phrase : Phrase} (h : Derives read phrase) :
    phrase.Scanned (read.map (·.token)) := by
  induction h with
  | operand _ ih => exact scanned_of_operand ih
  | @binary level op left right between first second hop _ _ ihleft ihright =>
      rw [List.map_append, List.map_cons]
      have hright : (Phrase.expr level second).Scanned (right.map (·.token)) :=
        scanned_of_operand ihright
      cases hlevel : level.isLoose with
      | true =>
          simp only [Phrase.Scanned, hlevel, if_true] at ihleft hright ⊢
          intro outer rest hrest
          rw [List.append_assoc]
          exact ihleft outer _ (.logical hlevel hop (hright outer rest hrest))
      | false =>
          simp only [Phrase.Scanned, hlevel, Bool.false_eq_true, if_false] at ihleft hright ⊢
          intro outer spare rest hle hrest
          rw [List.append_assoc]
          exact ihleft outer spare _ hle (.tight hlevel hop (hright outer spare rest hle hrest))
  | @comparison op left right between first second hop _ _ ihleft ihright =>
      rw [List.map_append, List.map_cons]
      intro outer rest hrest
      rw [List.append_assoc]
      have hleft : Operand (left.map (·.token)) := ihleft
      have hright : Operand (right.map (·.token)) := ihright
      exact hleft outer (outer + 1) _ (Nat.le_succ outer)
        (.compare hop (hright outer outer rest (Nat.le_refl outer) hrest))
  | unary hop _ ih =>
      intro outer spare rest hle hrest
      exact .sign hop (ih outer spare rest hle hrest)
  | literal h => exact operand_of_primary (.literal h)
  | @ident name lexeme h =>
      have hread : Scans .primary [lexeme.token] := by
        rw [h]
        exact .ident
      exact operand_of_primary hread
  | call hname hopened _ hclosed ih =>
      simp only [List.map_cons, List.map_append, List.map_nil, hname, hopened, hclosed]
      exact operand_of_primary (.call ih)
  | conditional hif _ hthen _ helse _ ihcondition ihthen ihelse =>
      simp only [List.map_cons, List.map_append, hif, hthen, helse]
      intro outer spare rest hle hrest
      simp only [List.cons_append, List.append_assoc]
      -- what follows the else branch is left to the expressions around it
      have hrest' := hrest.mono (.after hle (Nat.le_refl spare))
      exact .branch (Beginning.scans ihcondition) (Beginning.scans ihthen)
        (ihelse spare rest hrest')
  | parenthesised hopened _ hclosed ih =>
      simp only [List.map_cons, List.map_append, List.map_nil, hopened, hclosed]
      exact operand_of_primary (.parenthesised (Beginning.scans ih))
  | argument _ ih => exact .argument (Beginning.scans ih)
  | moreArguments _ hcomma _ ih ihargs =>
      rw [List.map_append, List.map_cons, hcomma]
      exact .moreArguments (Beginning.scans ih) ihargs
  | noArguments => exact .noArguments
  | someArguments _ ih => exact .someArguments ih
  | lastComma _ hcomma ih =>
      simp only [List.map_append, List.map_cons, List.map_nil, hcomma]
      exact .lastComma ih

/-- A derived expression is read from left to right. -/
theorem Derives.scans {read : List Lexeme} {e : Expr} (h : DerivesAt .disjunction read e) :
    Scans (.operand 0 1) (read.map (·.token)) :=
  Beginning.scans h.scanned

/-- Neither an arrow nor a brace is part of an expression. -/
theorem Scans.not_mem {stage : Stage} {tokens : List Token} (h : Scans stage tokens)
    {other : Token} (hother : other ∈ [.arrow, .lbrace, .rbrace]) : other ∉ tokens := by
  have hnone : Parser.prefixToken other = none ∧ Parser.comparisonToken other = none ∧
      Parser.literalToken other = none ∧ ∀ level : Level, level.operator other = none := by
    simp only [List.mem_cons, List.not_mem_nil, or_false] at hother
    rcases hother with rfl | rfl | rfl
    all_goals exact ⟨rfl, rfl, rfl, fun level => by cases level <;> rfl⟩
  obtain ⟨hsign, hcompare, hliteral, hoperator⟩ := hnone
  induction h with
  | sign hop _ ih =>
      rintro (_ | ⟨_, hmem⟩)
      · cases hsign.symm.trans hop
      · exact ih hmem
  | tight _ hop _ ih | logical _ hop _ ih =>
      rintro (_ | ⟨_, hmem⟩)
      · cases (hoperator _).symm.trans hop
      · exact ih hmem
  | compare hop _ ih =>
      rintro (_ | ⟨_, hmem⟩)
      · cases hcompare.symm.trans hop
      · exact ih hmem
  | literal h =>
      intro hmem
      rw [← List.mem_singleton.mp hmem] at h
      cases hliteral.symm.trans h
  | _ => grind

theorem Derives.ne {read : List Lexeme} {e : Expr} (h : DerivesAt .disjunction read e)
    {other : Token} (hother : other ∈ [.arrow, .lbrace, .rbrace]) :
    ∀ lexeme ∈ read, lexeme.token ≠ other := by
  rintro lexeme hmem rfl
  exact h.scans.not_mem hother (List.mem_map_of_mem hmem)

end ExprVet.Calc
