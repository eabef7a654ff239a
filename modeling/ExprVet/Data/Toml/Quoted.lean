import ExprVet.Data.Toml.Scalar

/-! # Quoted texts

A text stands between double quotes, where escapes are resolved, or between single quotes, where
every character stands for itself. Between tripled quotes it may run over several lines, and a break
right after the opening quotes does not count. -/

namespace ExprVet.Data.Toml

/-- Whether a character may stand in a line: no control character but the tab. -/
def isPlain (c : Char) : Bool := c == '\t' || (0x20 ≤ c.toNat && c.toNat != 0x7f)

/-- The blanks inside a line. -/
def isSpace (c : Char) : Bool := c == ' ' || c == '\t'

/-- The character with a number of so many digits in base sixteen at the start of a text. -/
def codePoint? (digits : Nat) (cs : List Char) : Option (Char × List Char) :=
  let code := numeral 16 (cs.take digits)
  if (cs.take digits).length = digits ∧ (cs.take digits).all isHexDigit ∧ code.isValidChar then
    some (Char.ofNat code, cs.drop digits)
  else none

/-- The character of an escape whose backslash stands just before the text. -/
def escape? : List Char → Option (Char × List Char)
  | 'b' :: cs => some ('\x08', cs)
  | 't' :: cs => some ('\t', cs)
  | 'n' :: cs => some ('\n', cs)
  | 'f' :: cs => some ('\x0c', cs)
  | 'r' :: cs => some ('\r', cs)
  | 'e' :: cs => some ('\x1b', cs)
  | '"' :: cs => some ('"', cs)
  | '\\' :: cs => some ('\\', cs)
  | 'x' :: cs => codePoint? 2 cs
  | 'u' :: cs => codePoint? 4 cs
  | 'U' :: cs => codePoint? 8 cs
  | _ => none

theorem length_codePoint?_le {digits : Nat} {cs rest : List Char} {c : Char}
    (h : codePoint? digits cs = some (c, rest)) : rest.length ≤ cs.length := by
  simp only [codePoint?] at h
  split at h
  · obtain ⟨-, rfl⟩ := Prod.mk.inj (Option.some.inj h)
    simp
  · contradiction

theorem length_escape?_lt {cs rest : List Char} {c : Char} (h : escape? cs = some (c, rest)) :
    rest.length < cs.length := by
  unfold escape? at h
  split at h
  case h_12 => contradiction
  case h_9 | h_10 | h_11 =>
    have := length_codePoint?_le h
    simp only [List.length_cons]
    omega
  all_goals
    obtain ⟨-, rfl⟩ := Prod.mk.inj (Option.some.inj h)
    simp

/-- Puts a character before a text that has been read. -/
def prepend (c : Char) (read : Option (List Char × List Char)) : Option (List Char × List Char) :=
  read.map fun (text, rest) => (c :: text, rest)

/-- The text up to the closing double quote, and what follows. -/
def basicText : List Char → Option (List Char × List Char)
  | [] => none
  | '"' :: rest => some ([], rest)
  | '\\' :: rest =>
      match h : escape? rest with
      | some (c, rest') =>
          have := length_escape?_lt h
          prepend c (basicText rest')
      | none => none
  | c :: rest => if isPlain c then prepend c (basicText rest) else none
termination_by cs => cs.length
decreasing_by all_goals simp; try omega

/-- The text up to the closing single quote, and what follows. -/
def literalText (cs : List Char) : Option (List Char × List Char) :=
  (Text.cutAt? (· == '\'') cs).filter fun (text, _) => text.all isPlain

/-- A text without the break it may start with. -/
def dropBreak : List Char → List Char
  | '\n' :: cs => cs
  | '\r' :: '\n' :: cs => cs
  | cs => cs

/-- Whether a text starts with a break. A carriage return makes one only together with a newline. -/
def startsWithBreak : List Char → Bool
  | '\n' :: _ => true
  | '\r' :: '\n' :: _ => true
  | _ => false

/-- A text without the blanks and breaks it starts with. -/
def dropBlankLines : List Char → List Char
  | ' ' :: cs => dropBlankLines cs
  | '\t' :: cs => dropBlankLines cs
  | '\n' :: cs => dropBlankLines cs
  | '\r' :: '\n' :: cs => dropBlankLines cs
  | cs => cs

theorem length_dropBlankLines_le (cs : List Char) : (dropBlankLines cs).length ≤ cs.length := by
  fun_induction dropBlankLines cs <;> simp_all <;> omega

/-- Whether the first character of a text may stand in a text of several lines. -/
def startsPlain (cs : List Char) : Bool := startsWithBreak cs || cs.head?.any isPlain

/-- What three quotes end: up to two more of them belong to the text. -/
def closeBlock (quote : Char) (rest : List Char) : List Char × List Char :=
  let more := (rest.takeWhile (· == quote)).take 2
  (more, rest.drop more.length)

/-- The text up to three double quotes, and what follows. A backslash at the end of a line takes the
blanks and breaks after it with it. -/
def basicBlock : List Char → Option (List Char × List Char)
  | [] => none
  | '"' :: '"' :: '"' :: rest => some (closeBlock '"' rest)
  | '\\' :: rest =>
      if startsWithBreak (rest.dropWhile isSpace) then basicBlock (dropBlankLines rest)
      else
        match h : escape? rest with
        | some (c, rest') =>
            have := length_escape?_lt h
            prepend c (basicBlock rest')
        | none => none
  | c :: rest =>
      if startsPlain (c :: rest) then prepend c (basicBlock rest) else none
termination_by cs => cs.length
decreasing_by
  · have := length_dropBlankLines_le rest
    simp only [List.length_cons]
    omega
  all_goals simp; try omega

/-- The text up to three single quotes, and what follows. -/
def literalBlock : List Char → Option (List Char × List Char)
  | [] => none
  | '\'' :: '\'' :: '\'' :: rest => some (closeBlock '\'' rest)
  | c :: rest =>
      if startsPlain (c :: rest) then prepend c (literalBlock rest) else none

/-- The quoted text at the start of a text, on one line. -/
def quotedLine : List Char → Option (List Char × List Char)
  | '"' :: rest => basicText rest
  | '\'' :: rest => literalText rest
  | _ => none

/-- The quoted text at the start of a text. -/
def quotedText : List Char → Option (List Char × List Char)
  | '"' :: '"' :: '"' :: rest => basicBlock (dropBreak rest)
  | '\'' :: '\'' :: '\'' :: rest => literalBlock (dropBreak rest)
  | cs => quotedLine cs

end ExprVet.Data.Toml
