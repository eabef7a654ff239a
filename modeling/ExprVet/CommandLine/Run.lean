import ExprVet.CommandLine.Arguments
import ExprVet.CommandLine.Files
import ExprVet.Session.Repl

/-! # Running a command line

A run is a function of the words, of the files that can be read and of the input. It ends with what
is written to the two outputs and with an exit code, which is zero for success, one for a snippet
with errors or a failure, and two for words that say nothing sensible. -/

namespace ExprVet.CommandLine

/-- What is written, and the exit code. -/
structure Output where
  code : Nat
  stdout : String
  stderr : String
  deriving DecidableEq, Repr

/-- What surrounds a run. -/
structure Surroundings where
  /-- The text of a file, or why it cannot be read. -/
  contents : String → Except FileError String
  /-- Where a configuration file is looked for when none is named. -/
  standardConfig : String
  /-- Whether the output is read on a terminal. -/
  isTerminal : Bool

inductive Failure where
  | unreadableConfig (path : String) (cause : FileError)
  | invalidConfig (path : String)
  | invalidVariable (error : EntryError)
  | session (failure : SessionFailure)
  deriving DecidableEq, Repr

/-- The messages about a failure, each explained by the next. -/
def Failure.chain : Failure → List String
  | unreadableConfig path cause =>
      ["Failed to load config", "failed to read " ++ path ++ ": " ++ cause.message, cause.message]
  | invalidConfig path =>
      let reason := "TOML parse error"
      ["Failed to load config", "invalid config " ++ path ++ ": " ++ reason, reason]
  | invalidVariable error => ["Invalid --var", error.message]
  | session failure => failure.chain

/-- A text whose lines after the first are moved to the right. -/
def indented (width : Nat) (text : String) : String :=
  String.ofList <| text.toList.flatMap fun c =>
    if c = '\n' then '\n' :: List.replicate width ' ' else [c]

/-- The causes of a failure, a line for each, which are numbered if there are several. -/
def causeLines : List String → List String
  | [] => []
  | [cause] => ["    " ++ indented 4 cause]
  | causes => causes.zipIdx.map fun (cause, number) =>
      let digits := toString number
      String.ofList (List.replicate (5 - digits.length) ' ') ++ digits ++ ": " ++ indented 7 cause

/-- A failure with its causes, as a run that it ends tells it. -/
def explained : List String → String
  | [] => ""
  | [message] => "Error: " ++ message ++ "\n"
  | message :: causes =>
      "Error: " ++ message ++ "\n\nCaused by:\n" ++ "\n".intercalate (causeLines causes) ++ "\n"

def Failure.output (failure : Failure) : Output := ⟨1, "", explained failure.chain⟩

/-- The configuration in a named file, or else in the standard one if that is there. -/
def loadConfig (surroundings : Surroundings) (named : Option String) :
    Except Failure SessionConfig :=
  let path := named.getD surroundings.standardConfig
  match surroundings.contents path with
  | .ok text =>
      match SessionConfig.ofText? text with
      | some config => .ok config
      | none => .error (.invalidConfig path)
  | .error cause =>
      if named = none ∧ cause.isAbsence then .ok .standard
      else .error (.unreadableConfig path cause)

/-- The request that the options of a check describe. -/
def CheckOptions.request (options : CheckOptions) : Except Failure CheckRequest := do
  let declarations ← (options.declarations.mapM parseBinding).mapError .invalidVariable
  return ⟨options.snippet, .ofEntry options.type, declarations, options.imports, options.modules⟩

/-- Checks one snippet. Only a terminal is shown colours. -/
def runCheck (config : SessionConfig) (isTerminal : Bool) (options : CheckOptions) :
    Except Failure Output := do
  let request ← options.request
  let errors ← (check config request).mapError .session
  let told :=
    if options.json then Report.json errors
    else Report.text errors request.text (config.color && isTerminal)
  return ⟨if errors.all (·.isWarning) then 0 else 1, told ++ "\n", ""⟩

/-- The version of the program. -/
def versionNumber : String := "0.3.0"

/-- What a session starts with. -/
def banner : String :=
  "snipcheck v" ++ versionNumber ++ "\nType /help for commands, /quit to exit.\n\n"

/-- What a session writes at the end of its input, unless the user has left before. -/
def farewell : String := "^D\n"

/-- What a session writes to the two outputs for an answer. -/
def written : Except SessionFailure (Option String) → String × String
  | .ok none => ("", "")
  | .ok (some shown) => (shown ++ "\n", "")
  | .error failure => ("", "Error: " ++ failure.message ++ "\n")

/-- What a session writes to the two outputs after its banner. -/
def transcript (session : Session) : List String → String × String
  | [] => (if session.isDone then "" else farewell, "")
  | line :: lines =>
      if session.isDone then ("", "")
      else
        let (result, session) := session.answer line
        let (out, err) := written result
        let (moreOut, moreErr) := transcript session lines
        (out ++ moreOut, err ++ moreErr)

def usageText : String :=
"Usage: snipcheck [OPTIONS] [COMMAND]

Commands:
  check <SNIPPET>  Validate one snippet and exit non-zero on errors
  repl             Start the interactive validator (the default)

Options:
      --config <CONFIG>  Config file
  -h, --help             Print help
  -V, --version          Print version

Options of check:
  -t, --type <TYPE>         Expected result type (default Any)
      --var <NAME:TYPE>     Variable declaration, repeatable
      --import <NAMESPACE>  Namespace import, repeatable
      --module <ID>         Local module reference, repeatable
      --json                Print errors as JSON
"

def Stop.output : Stop → Output
  | .usageError => ⟨2, "", usageText⟩
  | .help => ⟨0, usageText, ""⟩
  | .version => ⟨0, "snipcheck " ++ versionNumber ++ "\n", ""⟩

/-- Runs a command line on the lines of its input. -/
def run (surroundings : Surroundings) (words lines : List String) : Output :=
  match Invocation.read words with
  | .error stop => stop.output
  | .ok invocation =>
      match loadConfig surroundings invocation.config with
      | .error failure => failure.output
      | .ok config =>
          match invocation.task with
          | .check options =>
              match runCheck config surroundings.isTerminal options with
              | .ok output => output
              | .error failure => failure.output
          | .repl =>
              let (out, err) := transcript (Session.start config) lines
              ⟨0, banner ++ out, err⟩

end ExprVet.CommandLine
