import ExprVet.Main
import ExprVet.Scenario.Report
import ExprVet.Proofs.CheckedLambda
import ExprVet.Proofs.NameFindings
import ExprVet.Proofs.History
import ExprVet.Proofs.Hierarchy
import ExprVet.Proofs.ReturnTypes
import ExprVet.Proofs.Parsing
import ExprVet.Proofs.Grammar
import ExprVet.Proofs.Lexing
import ExprVet.Proofs.Variables
import ExprVet.Proofs.Rows
import ExprVet.Proofs.Header
import ExprVet.Proofs.Wrapper
import ExprVet.Proofs.Undeclared
import ExprVet.Proofs.Attachment
import ExprVet.Proofs.Levels
import ExprVet.Proofs.Scanning
import ExprVet.Proofs.Acceptance
import ExprVet.Proofs.Printing
import ExprVet.Proofs.RoundTrip
import ExprVet.Proofs.Interleaving
import ExprVet.Proofs.Joining
import ExprVet.Proofs.SnippetTokens
import ExprVet.Proofs.LambdaSyntax
import ExprVet.Proofs.Splicing
import ExprVet.Proofs.Declarations
import ExprVet.Proofs.VariableNames
import ExprVet.Proofs.Confinement
import ExprVet.Proofs.Spans
import ExprVet.Proofs.Boundaries
import ExprVet.Proofs.Places
import ExprVet.Proofs.Loading
import ExprVet.Proofs.Growth
import ExprVet.Proofs.Relocation
import ExprVet.Proofs.RelocatedChecks
import ExprVet.Proofs.Layout
import ExprVet.Proofs.Rereading
import ExprVet.Proofs.AnyResult
import ExprVet.Proofs.Conversions
import ExprVet.Proofs.FollowUps
import ExprVet.Proofs.Scopes
import ExprVet.Proofs.ScopeStack
import ExprVet.Proofs.Sessions
import ExprVet.Proofs.SessionContexts
import ExprVet.Proofs.Lines
import ExprVet.Proofs.ScenarioFiles
import ExprVet.Proofs.StringLiterals
import ExprVet.Proofs.TokenTexts
import ExprVet.Proofs.Nesting
import ExprVet.Proofs.NodeFindings
import ExprVet.Proofs.LexicalErrors
import ExprVet.Proofs.FindingOrder
import ExprVet.Proofs.UnitRuns
import ExprVet.Proofs.Activities
import ExprVet.Proofs.Verdicts
