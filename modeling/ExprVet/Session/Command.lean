import ExprVet.Session.Failure

/-! # Lines of a session

A line of input is a command if it starts with a slash and a snippet otherwise. The word of a
command is followed by its argument. -/

namespace ExprVet

inductive Command where
  | quit
  | help
  /-- Declares a variable in the innermost scope. -/
  | declare (name : String) (type : SemanticType)
  | showExpected
  | expect (type : SemanticType)
  | import (name : String)
  | module (id : ModuleId)
  | push
  | pop
  | showVariables
  | showModules
  | toggleJson
  | toggleWrapper
  | reset
  | unknown (word : String)
  deriving Repr

namespace Command

/-- The command of a word and an argument without blanks at its ends. -/
def read (word argument : String) : Except SessionFailure Command :=
  match word with
  | "/quit" | "/q" | "/exit" => .ok quit
  | "/help" | "/h" | "/?" => .ok help
  | "/let" =>
      match parseBinding argument with
      | .ok (name, type) => .ok (declare name type)
      | .error error => .error (.unreadable error)
  | "/expect" => .ok (if argument.isEmpty then showExpected else expect (.ofEntry argument))
  | "/import" => if argument.isEmpty then .error .missingNamespace else .ok (.import argument)
  | "/module" => if argument.isEmpty then .error .missingModule else .ok (.module argument)
  | "/push" => .ok push
  | "/pop" => .ok pop
  | "/vars" | "/scope" => .ok showVariables
  | "/modules" => .ok showModules
  | "/json" => .ok toggleJson
  | "/wrapper" => .ok toggleWrapper
  | "/reset" => .ok reset
  | word => .ok (unknown word)

end Command

inductive Line where
  | blank
  | snippet (text : String)
  | command (command : Command)
  deriving Repr

/-- Reads a line of input. -/
def Line.read (line : String) : Except SessionFailure Line :=
  match Text.trim line.toList with
  | [] => .ok .blank
  | '/' :: rest =>
      let (word, argument) := (Text.cutAt? Text.isBlank ('/' :: rest)).getD ('/' :: rest, [])
      (Command.read (String.ofList word) (String.ofList (Text.trim argument))).map .command
  | chars => .ok (.snippet (String.ofList chars))

end ExprVet
