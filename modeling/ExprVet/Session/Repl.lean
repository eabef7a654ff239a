import ExprVet.Report.Text
import ExprVet.Session.Check
import ExprVet.Session.Command

/-! # Interactive sessions

A session validates the snippets that are typed in, each in the context that commands have built up
so far. Validating a snippet leaves the context as it is. -/

namespace ExprVet

/-- What snippets of a session are checked against. -/
structure SessionContext where
  scope : VariableScope
  expected : SemanticType
  imports : List String
  modules : List ModuleId
  deriving Repr

namespace SessionContext

/-- Nothing is declared and every result is accepted. -/
def empty : SessionContext := ⟨.empty, .object, [], []⟩

def host (context : SessionContext) : HostContext :=
  (⟨[], ⟨"repl", context.imports, context.modules⟩⟩ : Activity).context

def request (context : SessionContext) (text : String) : Request :=
  ⟨context.host, context.scope.lookup, context.expected, text⟩

/-- Imports a namespace unless it is imported already. -/
def withImport (context : SessionContext) (name : String) : SessionContext :=
  if name ∈ context.imports then context else { context with imports := context.imports ++ [name] }

/-- Adds a local module unless it is there already. -/
def withModule (context : SessionContext) (id : ModuleId) : SessionContext :=
  if id ∈ context.modules then context else { context with modules := context.modules ++ [id] }

/-- The visible variables with their types, a line for each. -/
def variableLines (context : SessionContext) : List String :=
  context.scope.visibleNames.filterMap fun name =>
    (context.scope.lookup name).map fun type => "  " ++ name ++ ": " ++ type.name

end SessionContext

/-- How the answers to snippets look. -/
structure SessionDisplay where
  color : Bool
  json : Bool
  /-- Whether the wrapper of a snippet is shown before its report. -/
  wrapper : Bool
  deriving DecidableEq, Repr

structure Session where
  validator : Validator
  cache : ReferenceCache
  context : SessionContext
  display : SessionDisplay
  /-- Whether the user has asked to leave. -/
  isDone : Bool
  deriving Repr

/-- What the help command shows. -/
def helpText : String :=
"snipcheck: validate calc expressions in context

Commands:
  /help, /h, /?       Show this help
  /quit, /q, /exit    Exit the REPL
  /let name: Type     Declare a variable in the current scope
  /push, /pop         Enter or leave a nested scope
  /vars, /scope       Show visible variables
  /expect Type        Set the expected result type (default Any)
  /import ns          Import a namespace
  /module id          Add a local module reference
  /modules            Show catalog and loaded modules
  /json               Toggle JSON output
  /wrapper            Toggle display of the generated wrapper
  /reset              Clear variables, imports and modules

Types:
  Int Float Bool Str Any, or a qualified name such as geo.Shape

Examples:
  /let x: Int
  /expect Int
  x * 2 + 1
  if x > 0 then x else -x
  len(upper(\"abc\")) + x
"

namespace Session

def start (config : SessionConfig) : Session :=
  let (validator, cache) := config.validatorAndCache
  ⟨validator, cache, .empty, ⟨config.color, false, false⟩, false⟩

def onOff (on : Bool) : String := if on then "ON" else "OFF"

/-- Modules on one line. -/
def listed (ids : List ModuleId) : String :=
  if ids.isEmpty then "(none)" else ", ".intercalate ids

def depthText (context : SessionContext) : String := "scope depth: " ++ toString context.scope.depth

def variablesText (context : SessionContext) : String :=
  match context.variableLines with
  | [] => "(no variables declared)"
  | lines => "\n".intercalate ("Variables:" :: lines)

/-- The catalog, and the modules of which a reference is cached. -/
def modulesText (session : Session) : String :=
  "catalog: " ++ listed session.validator.catalog.ids ++ "\nloaded: " ++
    listed (session.cache.references.map (·.module))

/-- Carries out a command: what is shown, and the session after it. -/
def obey (session : Session) (command : Command) : Option String × Session :=
  let context := session.context
  let display := session.display
  let moved (context : SessionContext) (shown : String) :=
    (some shown, { session with context })
  match command with
  | .quit => (none, { session with isDone := true })
  | .help => (some helpText, session)
  | .declare name type =>
      moved { context with scope := context.scope.declare name type } (name ++ ": " ++ type.name)
  | .showExpected => (some ("expected type: " ++ context.expected.name), session)
  | .expect type =>
      moved { context with expected := type }
        ("expected type: " ++ type.name ++ " (`" ++ type.calcText ++ "`)")
  | .import name =>
      let context := context.withImport name
      moved context ("imports: " ++ ", ".intercalate context.imports)
  | .module id =>
      let context := context.withModule id
      moved context ("local modules: " ++ listed context.modules)
  | .push =>
      let context := { context with scope := context.scope.push }
      moved context (depthText context)
  | .pop =>
      let context := { context with scope := context.scope.pop }
      moved context (depthText context)
  | .showVariables => (some (variablesText context), session)
  | .showModules => (some session.modulesText, session)
  | .toggleJson =>
      let json := !display.json
      (some ("JSON output: " ++ onOff json), { session with display := { display with json } })
  | .toggleWrapper =>
      let wrapper := !display.wrapper
      (some ("wrapper display: " ++ onOff wrapper),
        { session with display := { display with wrapper } })
  | .reset => moved .empty "context cleared"
  | .unknown word =>
      (some ("Unknown command: " ++ word ++ "\nType /help for available commands."), session)

/-- The line about the wrapper of a snippet, where it is to be shown. -/
def wrapperLine (session : Session) (text : String) : Except SessionFailure String × Session :=
  if session.display.wrapper then
    let (result, validator, cache) :=
      session.validator.compile session.cache (session.context.request text)
    let shown := result.map fun compiled =>
      (compiled.unit.tree?.map fun tree => "wrapper: " ++ tree.source ++ "\n").getD ""
    (shown.mapError .compilation, { session with validator, cache })
  else (.ok "", session)

/-- The errors of a snippet as the session shows them. -/
def shownErrors (display : SessionDisplay) (text : String) (errors : List ValidationError) :
    String :=
  if display.json then Report.json errors else Report.text errors text display.color

/-- Validates a snippet: what is shown, and the session with what was loaded on the way. -/
def validate (session : Session) (text : String) : Except SessionFailure String × Session :=
  match session.wrapperLine text with
  | (.error failure, session) => (.error failure, session)
  | (.ok line, session) =>
      let (result, validator, cache) :=
        session.validator.validate session.cache (session.context.request text)
      let shown := result.map fun errors => line ++ shownErrors session.display text errors
      (shown.mapError .validation, { session with validator, cache })

/-- Answers one line of input. -/
def answer (session : Session) (line : String) : Except SessionFailure (Option String) × Session :=
  match Line.read line with
  | .error failure => (.error failure, session)
  | .ok .blank => (.ok none, session)
  | .ok (.command command) =>
      let (shown, session) := session.obey command
      (.ok shown, session)
  | .ok (.snippet text) =>
      let (shown, session) := session.validate text
      (shown.map some, session)

end Session

end ExprVet
