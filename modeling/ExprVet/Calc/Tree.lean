import ExprVet.Calc.Parser.Lambda

/-! # Syntax trees of calc

A snippet is read twice: on its own, as a flat list of tokens in which its variables are looked for,
and inside the wrapper that declares them, as a lambda. Both readings list the same kinds of nodes.
-/

namespace ExprVet.Calc

inductive NodeKind where
  | root
  /-- A name that is not called. -/
  | identifier
  /-- A name before an opening parenthesis. -/
  | function
  | literal
  | keyword
  | operator
  | punctuation
  | unknown
  deriving DecidableEq, Repr

def NodeKind.classify (token : Token) (following : Option Token) : NodeKind :=
  match token with
  | .ident _ => if following = some .lparen then .function else .identifier
  | .int _ | .float _ | .str _ | .kwTrue | .kwFalse => .literal
  | .kwIf | .kwThen | .kwElse => .keyword
  | .error => .unknown
  | token => if token.isOperator then .operator else .punctuation

structure Node where
  kind : NodeKind
  text : String
  span : Span
  deriving DecidableEq, Repr

/-- What is known of a source that was read as a wrapper. -/
structure WrapperSyntax where
  lambda : Option Lambda
  errors : List SyntaxError
  /-- Where the snippet stands in the source. -/
  body : Span
  deriving Repr

structure Tree where
  source : String
  lexemes : List Lexeme
  /-- Nothing for a snippet that was read on its own. -/
  wrapper : Option WrapperSyntax
  deriving Repr

namespace Tree

/-- Reads a snippet on its own. -/
def discovery (source : String) : Tree := ⟨source, tokenize source, none⟩

/-- The text between the first opening brace and the closing brace that ends the source. -/
def bodySpan? (source : String) (lexemes : List Lexeme) : Option Span := do
  let brace ← lexemes.find? (·.token == .lbrace)
  let opened := brace.span.stop
  let close := source.utf8ByteSize - 1
  if source.toList.getLast? = some '\x7d' ∧ opened ≤ close then some ⟨opened, close⟩ else none

/-- Reads the source of a wrapper; nothing for a source without a body in braces. -/
def wrapper? (source : String) : Option Tree := do
  let lexemes := tokenize source
  let body ← bodySpan? source lexemes
  let (lambda, errors) := parseWrapper body.stop source.utf8ByteSize lexemes
  return ⟨source, lexemes, some ⟨lambda, errors, body⟩⟩

def lambda (tree : Tree) : Option Lambda := tree.wrapper.bind (·.lambda)

def syntaxErrors (tree : Tree) : List SyntaxError :=
  match tree.wrapper with
  | some wrapper => wrapper.errors
  | none => []

def body (tree : Tree) : Option Span := tree.wrapper.map (·.body)

/-- A span of the source as a span of the snippet; nothing for one outside of the snippet. -/
def snippetSpan (tree : Tree) (span : Span) : Option Span :=
  match tree.body with
  | some body => span.within body
  | none => some span

/-- The nodes of tokens that stand in a row. -/
def nodesOf : List Lexeme → List Node
  | [] => []
  | lexeme :: rest =>
      ⟨NodeKind.classify lexeme.token (rest.head?.map (·.token)), String.ofList lexeme.text,
        lexeme.span⟩ :: nodesOf rest

/-- The whole source and then one node for each token. -/
def nodes (tree : Tree) : List Node :=
  ⟨.root, tree.source, ⟨0, tree.source.utf8ByteSize⟩⟩ :: nodesOf tree.lexemes

/-- The names that occur without being called, each once and in order. -/
def identifiers (tree : Tree) : List String :=
  ((tree.nodes.filter (·.kind == .identifier)).map (·.text)).eraseDups

end Tree

end ExprVet.Calc
