import ExprVet.Calc.Expectation

/-! # Parsers over tokens

A parser reads tokens from a place and either moves on with a value or fails. Both ways it updates
the pending expectations; they never influence what is read.

## Implementation notes

Choice is ordered and repetition takes as much as it can. A step that fails in the middle gives back
all tokens it had read. Loops are bounded by the number of tokens that are left, which no loop can
exceed as each round reads at least one. -/

namespace ExprVet.Calc

/-- A place between tokens. -/
structure Cursor where
  /-- The end of the token before. -/
  stop : Nat
  rest : List Lexeme
  deriving Repr

/-- Where the next token starts. -/
def Cursor.start (cursor : Cursor) : Nat :=
  match cursor.rest with
  | [] => cursor.stop
  | lexeme :: _ => lexeme.span.start

def Parser (α : Type) : Type :=
  Cursor → Option Pending → Option (α × Cursor) × Option Pending

namespace Parser

variable {α β : Type}

protected def pure (value : α) : Parser α := fun cursor pending => (some (value, cursor), pending)

protected def bind (p : Parser α) (next : α → Parser β) : Parser β := fun cursor pending =>
  match p cursor pending with
  | (none, pending) => (none, pending)
  | (some (value, cursor), pending) => next value cursor pending

instance : Monad Parser where
  pure := Parser.pure
  bind := Parser.bind

/-- Fails without an expectation. -/
def fail : Parser α := fun _ pending => (none, pending)

/-- The next token, if `accept` gives it a value; otherwise `expected` is missed. -/
def next (accept : Token → Option α) (expected : Expected) : Parser (α × Span) :=
  fun cursor pending =>
    let missed := (none, some (Pending.offer cursor.rest expected pending))
    match cursor.rest with
    | [] => missed
    | lexeme :: rest =>
        match accept lexeme.token with
        | some value => (some ((value, lexeme.span), ⟨lexeme.span.stop, rest⟩), pending)
        | none => missed

/-- One particular token. -/
def token (token : Token) : Parser Span := do
  let ((), span) ← next (fun t => if t = token then some () else none) (.token token)
  return span

/-- One of several tokens, which have no common name. -/
def select (accept : Token → Option α) : Parser (α × Span) := next accept .somethingElse

/-- Succeeds where no token is left. -/
def endOfInput : Parser Unit := fun cursor pending =>
  if cursor.rest.isEmpty then (some ((), cursor), pending)
  else (none, some (Pending.offer cursor.rest .endOfInput pending))

/-- The first parser, or from the same place the second one. -/
def orElse (p q : Parser α) : Parser α := fun cursor pending =>
  match p cursor pending with
  | (none, pending) => q cursor pending
  | success => success

/-- A value if there is one. -/
def optional (p : Parser α) : Parser (Option α) := fun cursor pending =>
  match p cursor pending with
  | (none, pending) => (some (none, cursor), pending)
  | (some (value, cursor), pending) => (some (some value, cursor), pending)

def manyUpTo (p : Parser α) : Nat → Parser (List α)
  | 0 => Parser.pure []
  | n + 1 => do
      match ← optional p with
      | none => return []
      | some value => return value :: (← manyUpTo p n)

/-- As many values as follow one another. -/
def many (p : Parser α) : Parser (List α) := fun cursor =>
  manyUpTo p (cursor.rest.length + 1) cursor

/-- At least one value, with separators between them. -/
def separated (p : Parser α) (separator : Parser β) : Parser (List α) := do
  let first ← p
  return first :: (← many (do let _ ← separator; p))

/-- Any number of values, with separators between them and possibly one after the last. -/
def separatedOrNone (p : Parser α) (separator : Parser β) : Parser (List α) := do
  match ← optional p with
  | none => return []
  | some first =>
      let more ← many (do let _ ← separator; p)
      let _ ← optional separator
      return first :: more

/-- Names the construct that `p` reads in place of the expectations at its start. -/
def labelled (construct : Construct) (p : Parser α) : Parser α := fun cursor saved =>
  let (result, own) := p cursor none
  (result, Pending.mergeOption saved (own.map (Pending.relabel cursor.rest construct)))

/-- A value with the span from its first to its last token. -/
def spanned (p : Parser α) : Parser (α × Span) := fun cursor pending =>
  match p cursor pending with
  | (none, pending) => (none, pending)
  | (some (value, after), pending) => (some ((value, ⟨cursor.start, after.stop⟩), after), pending)

end Parser

end ExprVet.Calc
