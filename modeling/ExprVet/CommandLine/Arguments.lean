/-! # Arguments

The words of a command line say what to do: check one snippet, or start a session, which is also
what happens without words. Options may stand before and after what they belong to, and after two
dashes nothing is an option any more. -/

namespace ExprVet.CommandLine

/-- The part of the command line that is being read. -/
inductive Level where
  | top
  | check
  | repl
  deriving DecidableEq, Repr

inductive Flag where
  | config
  | type
  | variable
  | import
  | module
  | json
  | help
  | version
  deriving DecidableEq, Repr

/-- Whether a flag is followed by a value. -/
def Flag.takesValue : Flag → Bool
  | .config | .type | .variable | .import | .module => true
  | .json | .help | .version => false

namespace Level

/-- The flag of a name after two dashes. -/
def long? (level : Level) (name : String) : Option Flag :=
  match level, name with
  | _, "config" => some .config
  | _, "help" => some .help
  | top, "version" => some .version
  | check, "type" => some .type
  | check, "var" => some .variable
  | check, "import" => some .import
  | check, "module" => some .module
  | check, "json" => some .json
  | _, _ => none

/-- The flag of a letter after one dash. -/
def short? (level : Level) (letter : Char) : Option Flag :=
  match level, letter with
  | _, 'h' => some .help
  | top, 'V' => some .version
  | check, 't' => some .type
  | _, _ => none

end Level

inductive Word where
  | operand (text : String)
  | long (name : String) (value : Option String)
  | short (letters : List Char)
  /-- Two dashes, after which every word is an operand. -/
  | separator
  deriving DecidableEq, Repr

/-- The name of a long option and the value that an equals sign may attach to it. -/
def splitValue : List Char → List Char × Option (List Char)
  | [] => ([], none)
  | '=' :: value => ([], some value)
  | c :: cs =>
      let (name, value) := splitValue cs
      (c :: name, value)

def Word.read (text : String) : Word :=
  match text.toList with
  | ['-', '-'] => separator
  | '-' :: '-' :: cs =>
      let (name, value) := splitValue cs
      long (String.ofList name) (value.map String.ofList)
  | '-' :: c :: cs => short (c :: cs)
  | _ => operand text

/-- Why reading ends before the last word. -/
inductive Stop where
  | usageError
  | help
  | version
  deriving DecidableEq, Repr

/-- What the words of one level have said so far. -/
structure Collected where
  config : Option String
  snippet : Option String
  type : Option String
  declarations : List String
  imports : List String
  modules : List String
  json : Bool
  deriving DecidableEq, Repr

namespace Collected

def empty : Collected := ⟨none, none, none, [], [], [], false⟩

/-- Takes the value of a flag. Variables, imports and modules may be repeated. -/
def setValue (c : Collected) (flag : Flag) (value : String) : Except Stop Collected :=
  match flag with
  | .config =>
      if c.config.isSome || value.isEmpty then .error .usageError
      else .ok { c with config := some value }
  | .type => if c.type.isSome then .error .usageError else .ok { c with type := some value }
  | .variable => .ok { c with declarations := c.declarations ++ [value] }
  | .import => .ok { c with imports := c.imports ++ [value] }
  | .module => .ok { c with modules := c.modules ++ [value] }
  | .json | .help | .version => .error .usageError

/-- Takes a flag without a value. -/
def setSwitch (c : Collected) (flag : Flag) : Except Stop Collected :=
  match flag with
  | .json => if c.json then .error .usageError else .ok { c with json := true }
  | .help => .error .help
  | .version => .error .version
  | .config | .type | .variable | .import | .module => .error .usageError

/-- Takes an operand. Only the snippet of a check is one. -/
def addOperand (c : Collected) (level : Level) (text : String) : Except Stop Collected :=
  if level = .check ∧ c.snippet = none then .ok { c with snippet := some text }
  else .error .usageError

/-- Takes a group of short flags: what was collected and the flag that waits for its value. -/
def addShort (level : Level) (c : Collected) : List Char → Except Stop (Collected × Option Flag)
  | [] => .ok (c, none)
  | letter :: rest =>
      match level.short? letter with
      | none => .error .usageError
      | some flag =>
          if flag.takesValue then
            match rest with
            | [] => .ok (c, some flag)
            | '=' :: value => (c.setValue flag (String.ofList value)).map (·, none)
            | value => (c.setValue flag (String.ofList value)).map (·, none)
          else do addShort level (← c.setSwitch flag) rest

/-- Takes a long flag: what was collected and the flag that waits for its value. -/
def addLong (level : Level) (c : Collected) (name : String) (value : Option String) :
    Except Stop (Collected × Option Flag) :=
  match level.long? name, value with
  | none, _ => .error .usageError
  | some flag, some value => (c.setValue flag value).map (·, none)
  | some flag, none =>
      if flag.takesValue then .ok (c, some flag) else (c.setSwitch flag).map (·, none)

end Collected

/-- A snippet to check, as texts. -/
structure CheckOptions where
  snippet : String
  type : String
  declarations : List String
  imports : List String
  modules : List String
  json : Bool
  deriving DecidableEq, Repr

inductive Task where
  | check (options : CheckOptions)
  | repl
  deriving DecidableEq, Repr

/-- What a whole command line says. -/
structure Invocation where
  /-- The configuration file, if one is named. -/
  config : Option String
  task : Task
  deriving DecidableEq, Repr

/-- The task of a level. A check needs a snippet, and any result is expected unless a type is given.
-/
def Collected.task (c : Collected) : Level → Except Stop Task
  | .top | .repl => .ok .repl
  | .check =>
      match c.snippet with
      | none => .error .usageError
      | some snippet =>
          .ok (.check ⟨snippet, c.type.getD "Any", c.declarations, c.imports, c.modules, c.json⟩)

/-- A configuration file named for a task counts before one named in front of it. -/
def Collected.invocation (c : Collected) (level : Level) (outer : Option String) :
    Except Stop Invocation :=
  (c.task level).map fun task => ⟨c.config.or outer, task⟩

/-- Asking for help on a task is the only use of operands there. -/
def helpOn : List String → Stop
  | [] | ["check"] | ["repl"] | ["help"] => .help
  | _ => .usageError

/-- Reads the words that are left on a level. `outer` is the configuration file named before, and
`pending` the flag that waits for its value. -/
def readWords (level : Level) (outer : Option String) (pending : Option Flag) (c : Collected) :
    List String → Except Stop Invocation
  | [] => if pending.isSome then .error .usageError else c.invocation level outer
  | text :: rest =>
      match pending, Word.read text with
      | some flag, .operand value => do
          readWords level outer none (← c.setValue flag value) rest
      | some _, _ => .error .usageError
      | none, .separator => do
          (← rest.foldlM (fun c text => c.addOperand level text) c).invocation level outer
      | none, .long name value => do
          let (c, pending) ← c.addLong level name value
          readWords level outer pending c rest
      | none, .short letters => do
          let (c, pending) ← c.addShort level letters
          readWords level outer pending c rest
      | none, .operand text =>
          match level, text with
          | .top, "check" => readWords .check c.config none .empty rest
          | .top, "repl" => readWords .repl c.config none .empty rest
          | .top, "help" => .error (helpOn rest)
          | level, text => do readWords level outer none (← c.addOperand level text) rest

/-- What the words of a command line say. -/
def Invocation.read (words : List String) : Except Stop Invocation :=
  readWords .top none none .empty words

end ExprVet.CommandLine
