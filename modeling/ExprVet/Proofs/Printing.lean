import ExprVet.Proofs.Grammar
import ExprVet.Proofs.Lexing

/-!
# Expressions as text

An expression is written with the parentheses that its shape needs: around an operand that binds
more loosely than its place, around a comparison within a comparison and around a conditional that
is an operand. What is written is read as the tokens of the expression, parentheses included,
whatever stops the text behind it.
-/

namespace ExprVet.Calc

open Text

/-- How tightly a level binds. -/
def Level.rank : Level → Nat
  | disjunction => 0
  | conjunction => 1
  | comparison => 2
  | sum => 3
  | product => 4
  | unary => 5
  | atom => 6

namespace BinaryOp

def level : BinaryOp → Level
  | or => .disjunction
  | and => .conjunction
  | eq | notEq | lt | gt | ltEq | gtEq => .comparison
  | add | sub => .sum
  | mul | div | rem => .product

/-- The level of the left operand. Operators are grouped to the left, but for comparisons. -/
def leftLevel : BinaryOp → Level
  | eq | notEq | lt | gt | ltEq | gtEq => .sum
  | op => op.level

def token : BinaryOp → Token
  | add => .plus
  | sub => .minus
  | mul => .star
  | div => .slash
  | rem => .percent
  | eq => .eqEq
  | notEq => .notEq
  | lt => .lt
  | gt => .gt
  | ltEq => .ltEq
  | gtEq => .gtEq
  | and => .and
  | or => .or

end BinaryOp

def UnaryOp.token : UnaryOp → Token
  | neg => .minus
  | not => .bang

/-- Whether an expression is an operand of a level as it is. -/
def Expr.fits (level : Level) : Expr → Bool
  | .literal _ _ | .ident _ _ | .call _ _ _ _ => true
  | .unary _ _ _ => level.rank ≤ Level.unary.rank
  | .binary op _ _ _ => level.rank ≤ op.level.rank
  | .conditional _ _ _ _ => false

/-- The tokens of an operand, in parentheses unless it fits. -/
def enclosedTokens (fits : Bool) (tokens : List Token) : List Token :=
  if fits then tokens else .lparen :: (tokens ++ [.rparen])

/-- The text of an operand, in parentheses unless it fits. -/
def enclosed (fits : Bool) (text : List Char) : List Char :=
  if fits then text else '(' :: (text ++ [')'])

def Literal.token : Literal → Token
  | int value => .int value
  | float value => .float value
  | str value => .str value
  | bool true => .kwTrue
  | bool false => .kwFalse

mutual

/-- The tokens that an expression is written with. -/
def Expr.tokens : Expr → List Token
  | .literal value _ => [value.token]
  | .ident name _ => [.ident name]
  | .unary op operand _ => op.token :: enclosedTokens (operand.fits .unary) operand.tokens
  | .binary op left right _ =>
      enclosedTokens (left.fits op.leftLevel) left.tokens ++
        op.token :: enclosedTokens (right.fits op.level.operand) right.tokens
  | .conditional condition thenBranch elseBranch _ =>
      .kwIf :: (condition.tokens ++ .kwThen :: (thenBranch.tokens ++ .kwElse :: elseBranch.tokens))
  | .call callee _ args _ => .ident callee :: .lparen :: (Expr.argTokens args ++ [.rparen])

def Expr.argTokens : List Expr → List Token
  | [] => []
  | [arg] => arg.tokens
  | arg :: next :: args => arg.tokens ++ .comma :: Expr.argTokens (next :: args)

end

/-- The characters of a string literal that stand for a character. -/
def escapeChar (c : Char) : List Char :=
  if c = '\\' then ['\\', '\\']
  else if c = '"' then ['\\', '"']
  else if c = '\n' then ['\\', 'n']
  else if c = '\t' then ['\\', 't']
  else [c]

def escape (text : List Char) : List Char := text.flatMap escapeChar

def Literal.print : Literal → List Char
  | int value => Nat.toDigits 10 value
  | float value => value.whole ++ '.' :: value.fraction
  | str value => '"' :: (escape value.toList ++ ['"'])
  | bool true => ['t', 'r', 'u', 'e']
  | bool false => ['f', 'a', 'l', 's', 'e']

mutual

/-- An expression as text. -/
def Expr.print : Expr → List Char
  | .literal value _ => value.print
  | .ident name _ => name.toList
  | .unary op operand _ => op.text.toList ++ enclosed (operand.fits .unary) operand.print
  | .binary op left right _ =>
      enclosed (left.fits op.leftLevel) left.print ++
        ' ' :: (op.text.toList ++ ' ' :: enclosed (right.fits op.level.operand) right.print)
  | .conditional condition thenBranch elseBranch _ =>
      ['i', 'f', ' '] ++ (condition.print ++ ([' ', 't', 'h', 'e', 'n', ' '] ++
        (thenBranch.print ++ ([' ', 'e', 'l', 's', 'e', ' '] ++ elseBranch.print))))
  | .call callee _ args _ => callee.toList ++ '(' :: (Expr.argPrint args ++ [')'])

def Expr.argPrint : List Expr → List Char
  | [] => []
  | [arg] => arg.print
  | arg :: next :: args => arg.print ++ ([',', ' '] ++ Expr.argPrint (next :: args))

end

/-- Digits on both sides of a point. -/
structure Numeral.WellFormed (n : Numeral) : Prop where
  whole_ne : n.whole ≠ []
  whole : n.whole.all isDigit = true
  fraction_ne : n.fraction ≠ []
  fraction : n.fraction.all isDigit = true

def Literal.Printable : Literal → Prop
  | int value => value ≤ maxInt
  | float value => value.WellFormed
  | str _ | bool _ => True

mutual

/-- Names are identifiers, integers are in range and floating point numbers are numerals. -/
def Expr.Printable : Expr → Prop
  | .literal value _ => value.Printable
  | .ident name _ => IsIdentifier name.toList
  | .unary _ operand _ => operand.Printable
  | .binary _ left right _ => left.Printable ∧ right.Printable
  | .conditional condition thenBranch elseBranch _ =>
      condition.Printable ∧ thenBranch.Printable ∧ elseBranch.Printable
  | .call callee _ args _ => IsIdentifier callee.toList ∧ Expr.AllPrintable args

def Expr.AllPrintable : List Expr → Prop
  | [] => True
  | arg :: args => arg.Printable ∧ Expr.AllPrintable args

end

/-- What follows a written expression ends its last token. -/
def Stops (rest : List Char) : Prop := ∀ c ∈ rest.head?, c ∈ [' ', ')', ',', '\x7d']

theorem stops_cons {c : Char} (h : c ∈ [' ', ')', ',', '\x7d']) (rest : List Char) :
    Stops (c :: rest) := forall_mem_head?_cons h rest

theorem Stops.not_nameChar {rest : List Char} (h : Stops rest) :
    ∀ c ∈ rest.head?, isNameChar c = false := by
  intro c hc
  have hmem := h c hc
  simp only [List.mem_cons, List.not_mem_nil, or_false] at hmem
  rcases hmem with rfl | rfl | rfl | rfl <;> rfl

theorem Stops.not_digit {rest : List Char} (h : Stops rest) :
    ∀ c ∈ rest.head?, isDigit c = false := by
  intro c hc
  exact (Bool.or_eq_false_iff.mp (h.not_nameChar c hc)).2

theorem Stops.ne_point {rest : List Char} (h : Stops rest) : ∀ c ∈ rest.head?, c ≠ '.' := by
  rintro c hc rfl
  exact absurd (h '.' hc) (by decide)

theorem isDigit_eq (c : Char) : isDigit c = c.isDigit := by
  simp [isDigit, Char.isDigit, Char.le_def]

theorem digitsValue_toDigits (n : Nat) : digitsValue (Nat.toDigits 10 n) = n := by
  have hvalue : digitsValue (Nat.toDigits 10 n) = Nat.ofDigitChars 10 (Nat.toDigits 10 n) 0 := rfl
  rw [hvalue, Nat.ofDigitChars_ten_toDigits]

/-- A digit begins a number and nothing else. -/
theorem class_of_isDigit {c : Char} (h : isDigit c = true) :
    isSeparator c = false ∧ isNameStart c = false := by
  simp only [isDigit, Bool.and_eq_true, decide_eq_true_eq, Char.le_def, UInt32.le_iff_toNat_le] at h
  have hlow : 48 ≤ c.val.toNat := h.1
  have hhigh : c.val.toNat ≤ 57 := h.2
  constructor
  · simp only [isSeparator, Bool.or_eq_false_iff, beq_eq_false_iff_ne]
    refine ⟨⟨⟨⟨?_, ?_⟩, ?_⟩, ?_⟩, ?_⟩ <;> rintro rfl <;> revert hlow <;> decide
  · have hupper : ¬(65 ≤ c.val.toNat) := by omega
    have hlower : ¬(97 ≤ c.val.toNat) := by omega
    simp only [isNameStart, Bool.or_eq_false_iff, Bool.and_eq_false_iff, decide_eq_false_iff_not,
      beq_eq_false_iff_ne, Char.le_def, UInt32.le_iff_toNat_le]
    refine ⟨⟨.inl hupper, .inl hlower⟩, ?_⟩
    rintro rfl
    revert hhigh
    decide

theorem firstToken_digit {c : Char} (h : isDigit c = true) (cs : List Char) :
    firstToken c cs = numberToken c cs := by
  unfold firstToken
  rw [if_neg (by simp [(class_of_isDigit h).2]), if_pos h]

theorem numberToken_int {c : Char} {cs rest : List Char} (hcs : cs.all isDigit = true)
    (hvalue : digitsValue (c :: cs) ≤ maxInt) (hrest : Stops rest) :
    numberToken c (cs ++ rest) = (.int (digitsValue (c :: cs)), cs.length) := by
  have htake : (cs ++ rest).takeWhile isDigit = cs := by
    rw [takeWhile_append_of_stop cs hrest.not_digit]
    exact List.takeWhile_eq_self_iff.mpr (List.all_eq_true.mp hcs)
  simp only [numberToken, htake, List.drop_left]
  cases rest with
  | nil => simp [hvalue]
  | cons d rest =>
      have hd : d ≠ '.' := hrest.ne_point d rfl
      simp [hd, hvalue]

theorem numberToken_float {c : Char} {cs fraction rest : List Char} (hcs : cs.all isDigit = true)
    (hne : fraction ≠ []) (hfraction : fraction.all isDigit = true) (hrest : Stops rest) :
    numberToken c (cs ++ '.' :: (fraction ++ rest)) =
      (.float ⟨c :: cs, fraction⟩, (cs ++ '.' :: fraction).length) := by
  have hpoint : ∀ d ∈ ('.' :: (fraction ++ rest)).head?, isDigit d = false := by
    rintro _ ⟨⟩
    rfl
  have htake : (cs ++ '.' :: (fraction ++ rest)).takeWhile isDigit = cs := by
    rw [takeWhile_append_of_stop cs hpoint]
    exact List.takeWhile_eq_self_iff.mpr (List.all_eq_true.mp hcs)
  have hfractionTake : (fraction ++ rest).takeWhile isDigit = fraction := by
    rw [takeWhile_append_of_stop fraction hrest.not_digit]
    exact List.takeWhile_eq_self_iff.mpr (List.all_eq_true.mp hfraction)
  simp only [numberToken, htake, List.drop_left, hfractionTake, List.isEmpty_iff, if_neg hne]
  simp only [List.length_append, List.length_cons]
  congr 1
  omega

theorem unescape_cons {c : Char} (h : c ≠ '\\') (cs : List Char) :
    unescape (c :: cs) = (unescape cs).map (c :: ·) := by
  rw [unescape.eq_def]
  split <;> simp_all

/-- Escapes are undone. -/
theorem unescape_escape (text : List Char) : unescape (escape text) = some text := by
  induction text with
  | nil => rfl
  | cons c cs ih =>
      rw [escape, List.flatMap_cons, ← escape]
      by_cases hbackslash : c = '\\'
      · subst hbackslash
        simp [escapeChar, unescape, ih]
      by_cases hquote : c = '"'
      · subst hquote
        simp [escapeChar, unescape, ih]
      by_cases hnewline : c = '\n'
      · subst hnewline
        simp [escapeChar, unescape, ih]
      by_cases htab : c = '\t'
      · subst htab
        simp [escapeChar, unescape, ih]
      have hplain : escapeChar c = [c] := by
        simp [escapeChar, hbackslash, hquote, hnewline, htab]
      rw [hplain, List.singleton_append, unescape_cons hbackslash, ih, Option.map_some]

/-- No quote in an escaped text ends the literal. -/
theorem stringEnd_escape (text rest : List Char) :
    stringEnd (escape text ++ '"' :: rest) = .closed (escape text).length := by
  induction text with
  | nil => rfl
  | cons c cs ih =>
      rw [escape, List.flatMap_cons, ← escape, List.append_assoc]
      by_cases hbackslash : c = '\\'
      · subst hbackslash
        simp [escapeChar, stringEnd, ih, StringEnd.add]
      by_cases hquote : c = '"'
      · subst hquote
        simp [escapeChar, stringEnd, ih, StringEnd.add]
      by_cases hnewline : c = '\n'
      · subst hnewline
        simp [escapeChar, stringEnd, ih, StringEnd.add]
      by_cases htab : c = '\t'
      · subst htab
        simp [escapeChar, stringEnd, ih, StringEnd.add]
      have hplain : escapeChar c = [c] := by
        simp [escapeChar, hbackslash, hquote, hnewline, htab]
      rw [hplain, List.singleton_append, stringEnd_cons hquote hbackslash, ih]
      rfl

theorem stringToken_escape (text : String) (rest : List Char) :
    stringToken (escape text.toList ++ '"' :: rest) =
      (.str text, (escape text.toList ++ ['"']).length) := by
  rw [stringToken, stringEnd_escape]
  simp only [List.take_left, unescape_escape, Option.map_some, Option.getD_some,
    String.ofList_toList, List.length_append, List.length_singleton]

/-- An operator in front of the character does not take it in. -/
def endsOperator (c : Char) : Bool := c != '>' && c != '='

theorem Begins.enclosed {text : List Char} (h : Begins endsOperator text) (fits : Bool) :
    Begins endsOperator (enclosed fits text) := by
  cases fits with
  | true => exact h
  | false => exact ⟨'(', rfl, by decide⟩

theorem Begins.endsOperator {kind : Char → Bool} {text : List Char} (h : Begins kind text)
    (hgt : kind '>' = false) (heq : kind '=' = false) : Begins endsOperator text := by
  have hgt := h.ne hgt
  have heq := h.ne heq
  obtain ⟨c, hc, -⟩ := h
  refine ⟨c, hc, ?_⟩
  rw [Calc.endsOperator, Bool.and_eq_true, bne_iff_ne, bne_iff_ne]
  exact ⟨hgt c hc, heq c hc⟩

theorem begins_of_isDigit {c : Char} (h : isDigit c = true) (cs : List Char) :
    Begins isDigit (c :: cs) := ⟨c, rfl, h⟩

theorem exists_digits (n : Nat) : ∃ c cs, Nat.toDigits 10 n = c :: cs ∧ isDigit c = true ∧
    cs.all isDigit = true := by
  obtain ⟨c, cs, hdigits⟩ := List.exists_cons_of_ne_nil (Nat.toDigits_ne_nil (n := n) (b := 10))
  have hall : ∀ d ∈ c :: cs, isDigit d = true := by
    intro d hd
    rw [isDigit_eq]
    rw [← hdigits] at hd
    exact Nat.isDigit_of_mem_toDigits (by decide) (by decide) hd
  exact ⟨c, cs, hdigits, hall c List.mem_cons_self,
    List.all_eq_true.mpr fun d hd => hall d (List.mem_cons_of_mem c hd)⟩

theorem Numeral.WellFormed.exists_whole {n : Numeral} (h : n.WellFormed) :
    ∃ c cs, n.whole = c :: cs ∧ isDigit c = true ∧ cs.all isDigit = true := by
  obtain ⟨c, cs, hwhole⟩ := List.exists_cons_of_ne_nil h.whole_ne
  have hall := h.whole
  rw [hwhole, List.all_cons, Bool.and_eq_true] at hall
  exact ⟨c, cs, hwhole, hall⟩

theorem Literal.begins_print {value : Literal} (h : value.Printable) :
    Begins endsOperator value.print := by
  cases value with
  | int value =>
      obtain ⟨c, cs, hdigits, hc, -⟩ := exists_digits value
      rw [print, hdigits]
      exact (begins_of_isDigit hc _).endsOperator rfl rfl
  | float value =>
      obtain ⟨c, cs, hwhole, hc, -⟩ := Numeral.WellFormed.exists_whole h
      rw [print, hwhole]
      exact (begins_of_isDigit hc _).endsOperator rfl rfl
  | str value => exact ⟨'"', rfl, by decide⟩
  | bool value => cases value <;> exact ⟨_, rfl, by decide⟩

theorem Expr.begins_print : ∀ e : Expr, e.Printable → Begins endsOperator e.print
  | .literal _ _, h => Literal.begins_print h
  | .ident _ _, h => (begins_of_isIdentifier h).endsOperator rfl rfl
  | .unary op _ _, _ => by cases op <;> exact ⟨_, rfl, by decide⟩
  | .binary _ left _ _, h => ((Expr.begins_print left h.1).enclosed _).append _
  | .conditional _ _ _ _, _ => ⟨'i', rfl, by decide⟩
  | .call _ _ _ _, h => ((begins_of_isIdentifier h.1).endsOperator rfl rfl).append _

/-- A text is read as certain tokens without errors. -/
structure Printed (text : List Char) (tokens : List Token) : Prop where
  lexes : ∀ rest, Stops rest → Lexes text tokens rest
  plain : .error ∉ tokens

theorem Printed.enclosed {text : List Char} {tokens : List Token} (h : Printed text tokens)
    (fits : Bool) : Printed (enclosed fits text) (enclosedTokens fits tokens) := by
  cases fits with
  | true => exact h
  | false =>
      constructor
      · intro rest _
        have hclosed : Lexes [')'] [.rparen] rest := lexes_char (by decide) rfl
        have hopened : Lexes ['('] [.lparen] (text ++ [')'] ++ rest) := lexes_char (by decide) rfl
        have hinner := h.lexes ([')'] ++ rest) (stops_cons (by decide) rest)
        exact hopened.append (hinner.append hclosed)
      · have hplain := h.plain
        simp [enclosedTokens, hplain]

theorem Literal.printed {value : Literal} (h : value.Printable) :
    Printed value.print [value.token] := by
  constructor
  · intro rest hrest
    cases value with
    | int value =>
        obtain ⟨c, cs, hdigits, hc, hcs⟩ := exists_digits value
        have hvalue : digitsValue (c :: cs) = value := by
          rw [← hdigits, digitsValue_toDigits]
        have hnumber : firstToken c (cs ++ rest) = (.int value, cs.length) := by
          rw [firstToken_digit hc, numberToken_int hcs (by rw [hvalue]; exact h) hrest, hvalue]
        rw [print, hdigits]
        exact lexes_token (class_of_isDigit hc).1 hnumber
    | float value =>
        obtain ⟨whole, fraction⟩ := value
        obtain ⟨c, cs, rfl, hc, hcs⟩ := Numeral.WellFormed.exists_whole h
        have hnumber : firstToken c (cs ++ '.' :: fraction ++ rest) =
            (.float ⟨c :: cs, fraction⟩, (cs ++ '.' :: fraction).length) := by
          rw [firstToken_digit hc, List.append_assoc, List.cons_append,
            numberToken_float hcs h.fraction_ne h.fraction hrest]
        exact lexes_token (class_of_isDigit hc).1 hnumber
    | str value =>
        have hstring : firstToken '"' (escape value.toList ++ ['"'] ++ rest) =
            (.str value, (escape value.toList ++ ['"']).length) := by
          rw [List.append_assoc]
          exact stringToken_escape value rest
        exact lexes_token rfl hstring
    | bool value =>
        cases value
        all_goals exact lexes_word rfl (List.all_eq_true.mp rfl) hrest.not_nameChar
  · cases value with
    | bool value => cases value <;> simp [token]
    | _ => simp [token]

theorem lexes_keyword (c : Char) (cs : List Char) (hstart : isNameStart c = true)
    (hcs : cs.all isNameChar = true) (rest : List Char) :
    Lexes (c :: cs ++ [' ']) [wordToken (c :: cs)] rest := by
  have hspace : ∀ d ∈ ([' '] ++ rest).head?, isNameChar d = false := by
    rintro _ ⟨⟩
    rfl
  exact (lexes_word hstart (List.all_eq_true.mp hcs) hspace).append (lexes_space rest)

theorem UnaryOp.lexes_text (op : UnaryOp) {text : List Char} (h : Begins endsOperator text)
    (rest : List Char) : Lexes op.text.toList [op.token] (text ++ rest) := by
  cases op with
  | neg => exact lexes_char_of_orLonger (by decide) rfl ((h.append rest).ne rfl)
  | not => exact lexes_char_of_orLonger (by decide) rfl ((h.append rest).ne rfl)

theorem BinaryOp.lexes_text (op : BinaryOp) (rest : List Char) :
    Lexes op.text.toList [op.token] (' ' :: rest) := by
  cases op <;> exact lexes_token (by decide) rfl

mutual

/-- What is written of an expression is read as its tokens. -/
theorem Expr.printed : ∀ e : Expr, e.Printable → Printed e.print e.tokens
  | .literal value _, h => Literal.printed h
  | .ident name _, h => by
      constructor
      · intro rest hrest
        have hread := lexes_identifier h hrest.not_nameChar
        rw [String.ofList_toList] at hread
        exact hread
      · simp [tokens]
  | .unary op operand _, h => by
      have hoperand := (Expr.printed operand h).enclosed (operand.fits .unary)
      have hbegins := (Expr.begins_print operand h).enclosed (operand.fits .unary)
      constructor
      · intro rest hrest
        exact (op.lexes_text hbegins rest).append (hoperand.lexes rest hrest)
      · have hplain := hoperand.plain
        cases op <;> simp [tokens, UnaryOp.token, hplain]
  | .binary op left right _, h => by
      have hleft := (Expr.printed left h.1).enclosed (left.fits op.leftLevel)
      have hright := (Expr.printed right h.2).enclosed (right.fits op.level.operand)
      constructor
      · intro rest hrest
        have hop := (op.lexes_text _).append ((lexes_space _).append (hright.lexes rest hrest))
        exact (hleft.lexes _ (stops_cons (by decide) _)).append ((lexes_space _).append hop)
      · have hplainLeft := hleft.plain
        have hplainRight := hright.plain
        cases op <;> simp_all [tokens, BinaryOp.token]
  | .conditional condition thenBranch elseBranch _, h => by
      have hcondition := Expr.printed condition h.1
      have hthen := Expr.printed thenBranch h.2.1
      have helse := Expr.printed elseBranch h.2.2
      constructor
      · intro rest hrest
        have hkwIf (rest : List Char) : Lexes ['i', 'f', ' '] [.kwIf] rest :=
          lexes_keyword 'i' ['f'] rfl rfl rest
        have hkwThen (rest : List Char) : Lexes [' ', 't', 'h', 'e', 'n', ' '] [.kwThen] rest :=
          (lexes_space _).append (lexes_keyword 't' ['h', 'e', 'n'] rfl rfl rest)
        have hkwElse (rest : List Char) : Lexes [' ', 'e', 'l', 's', 'e', ' '] [.kwElse] rest :=
          (lexes_space _).append (lexes_keyword 'e' ['l', 's', 'e'] rfl rfl rest)
        have hafterThen := (hkwElse _).append (helse.lexes rest hrest)
        have hafterIf := (hkwThen _).append
          ((hthen.lexes _ (stops_cons (by decide) _)).append hafterThen)
        exact (hkwIf _).append ((hcondition.lexes _ (stops_cons (by decide) _)).append hafterIf)
      · have hplain1 := hcondition.plain
        have hplain2 := hthen.plain
        have hplain3 := helse.plain
        simp [tokens, hplain1, hplain2, hplain3]
  | .call callee _ args _, h => by
      have hargs := Expr.printed_args args h.2
      constructor
      · intro rest _
        have hclosed : Lexes [')'] [.rparen] rest := lexes_char (by decide) rfl
        have hinner := (hargs.lexes _ (stops_cons (by decide) rest)).append hclosed
        have hopened (rest : List Char) : Lexes ['('] [.lparen] rest := lexes_char (by decide) rfl
        have hparen : ∀ c ∈ ('(' :: (Expr.argPrint args ++ [')'] ++ rest)).head?,
            isNameChar c = false := by
          rintro _ ⟨⟩
          rfl
        have hname := lexes_identifier h.1 hparen
        rw [String.ofList_toList] at hname
        exact hname.append ((hopened _).append hinner)
      · have hplain := hargs.plain
        simp [tokens, hplain]

theorem Expr.printed_args : ∀ args : List Expr, Expr.AllPrintable args →
    Printed (Expr.argPrint args) (Expr.argTokens args)
  | [], _ => ⟨fun rest _ offset => ⟨[], rfl, rfl⟩, List.not_mem_nil⟩
  | [arg], h => Expr.printed arg h.1
  | arg :: next :: args, h => by
      have harg := Expr.printed arg h.1
      have hargs := Expr.printed_args (next :: args) h.2
      constructor
      · intro rest hrest
        have hcomma (rest : List Char) : Lexes [','] [.comma] rest := lexes_char (by decide) rfl
        have hlater := (hcomma _).append ((lexes_space _).append (hargs.lexes rest hrest))
        exact (harg.lexes _ (stops_cons (by decide) _)).append hlater
      · have hplain := harg.plain
        have hplain' := hargs.plain
        simp [argTokens, hplain, hplain']

end

end ExprVet.Calc
