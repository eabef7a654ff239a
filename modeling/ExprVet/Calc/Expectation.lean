import ExprVet.Calc.Token

/-! # What a reader expected

While tokens are read, the expectations that failed furthest on are remembered. If reading fails as
a whole they become the message: what was found there and what would have been accepted. -/

namespace ExprVet.Calc

/-- The constructs that a message can name as a whole. -/
inductive Construct where
  | wrapper | parameter | type | expression | literal | call | identifier | conditional
  deriving DecidableEq, Repr

def Construct.text : Construct → String
  | wrapper => "wrapper"
  | parameter => "parameter"
  | type => "type"
  | expression => "expression"
  | literal => "literal"
  | call => "call"
  | identifier => "identifier"
  | conditional => "if expression"

/-- Something that would have been accepted. -/
inductive Expected where
  | token (token : Token)
  /-- One of several tokens with no common name. -/
  | somethingElse
  | endOfInput
  | construct (construct : Construct)
  deriving DecidableEq, Repr

def Expected.text : Expected → String
  | token t => "'" ++ t.text ++ "'"
  | somethingElse => "something else"
  | endOfInput => "end of input"
  | construct c => c.text

/-- The failed expectations at one place, given by the tokens that were left there. -/
structure Pending where
  rest : List Lexeme
  expected : List Expected
  deriving DecidableEq, Repr

namespace Pending

/-- An expectation that failed before `rest`. The furthest place is kept; at one place expectations
are collected in order. -/
def offer (rest : List Lexeme) (expected : Expected) : Option Pending → Pending
  | none => ⟨rest, [expected]⟩
  | some pending =>
      if rest.length < pending.rest.length then ⟨rest, [expected]⟩
      else if pending.rest.length < rest.length then pending
      else if expected ∈ pending.expected then pending
      else { pending with expected := pending.expected ++ [expected] }

/-- Names a construct for all that was expected where it would have begun. -/
def relabel (rest : List Lexeme) (construct : Construct) (pending : Pending) : Pending :=
  if pending.rest.length = rest.length then { pending with expected := [.construct construct] }
  else pending

/-- The further of two; at one place both lists of expectations, the longer first. -/
def merge (saved own : Pending) : Pending :=
  if own.rest.length < saved.rest.length then own
  else if saved.rest.length < own.rest.length then saved
  else
    let (first, second) :=
      if saved.expected.length < own.expected.length then (own.expected, saved.expected)
      else (saved.expected, own.expected)
    { saved with expected := first ++ second.filter (· ∉ first) }

def mergeOption : Option Pending → Option Pending → Option Pending
  | some saved, some own => some (saved.merge own)
  | some saved, none => some saved
  | none, own => own

/-- `a`, or `a, or b`, or `a, b, or c`. -/
def alternatives : List String → String
  | [] => ""
  | [only] => only
  | first :: rest =>
      ", ".intercalate (first :: rest.dropLast) ++ ", or " ++ rest.getLastD ""

def message (pending : Pending) : String :=
  let found := match pending.rest with
    | [] => "end of input"
    | lexeme :: _ => "'" ++ lexeme.token.text ++ "'"
  "found " ++ found ++ " expected " ++ alternatives (pending.expected.map Expected.text)

end Pending

end ExprVet.Calc
