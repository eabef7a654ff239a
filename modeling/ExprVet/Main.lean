import ExprVet.CommandLine.Run

/-! # The program

The words of the command line and the configuration file are read here, and the lines of a session
one by one; what they mean is decided elsewhere. -/

namespace ExprVet.CommandLine

/-- Where the configuration file is looked for when none is named. -/
def standardConfigPath : IO String := do
  let home := (← IO.getEnv "HOME").getD "/tmp"
  let base := match ← IO.getEnv "XDG_CONFIG_HOME" with
    | some directory => if directory.startsWith "/" then directory else home ++ "/.config"
    | none => home ++ "/.config"
  return base ++ "/snipcheck/config.toml"

/-- The text of a file, or why it cannot be read. -/
def fileText (path : String) : IO (Except FileError String) := do
  try
    return .ok (← IO.FS.readFile path)
  catch
    | .noFileOrDirectory .. => return .error .notFound
    | .inappropriateType _ code _ => return .error (if code = 21 then .isAFolder else .notAFolder)
    | .permissionDenied .. => return .error .notPermitted
    | .invalidArgument .. => return .error .nameTooLong
    | error => return .error (.other (toString error))

def emit (stdout stderr : String) : IO Unit := do
  (← IO.getStdout).putStr stdout
  (← IO.getStdout).flush
  (← IO.getStderr).putStr stderr

/-- Answers lines until the input ends or the user leaves. -/
partial def converse (prompt : String) (session : Session) : IO Unit := do
  if session.isDone then return
  emit prompt ""
  let line ← (← IO.getStdin).getLine
  if line.isEmpty then emit farewell ""
  else
    let (result, session) := session.answer line
    let (stdout, stderr) := written result
    emit stdout stderr
    converse prompt session

/-- Runs the program; a session is answered line by line. -/
def perform (words : List String) : IO UInt32 := do
  match Invocation.read words with
  | .error stop =>
      emit stop.output.stdout stop.output.stderr
      return stop.output.code.toUInt32
  | .ok invocation =>
      let standardConfig ← standardConfigPath
      let text ← fileText (invocation.config.getD standardConfig)
      let isTerminal ← (← IO.getStdout).isTty
      let surroundings : Surroundings := ⟨fun _ => text, standardConfig, isTerminal⟩
      match invocation.task, loadConfig surroundings invocation.config with
      | .repl, .ok config =>
          emit banner ""
          let prompt := if ← (← IO.getStdin).isTty then "snip> " else ""
          converse prompt (Session.start config)
          return 0
      | _, _ =>
          let output := run surroundings words []
          emit output.stdout output.stderr
          return output.code.toUInt32

end ExprVet.CommandLine

def main (words : List String) : IO UInt32 := ExprVet.CommandLine.perform words
