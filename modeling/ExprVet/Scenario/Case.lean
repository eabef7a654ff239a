import ExprVet.Session.Entry

/-! # Scenario files

A scenario file lists snippets together with the validation errors that are expected of them:

```text
# test: undeclared_identifier
# type: core.Integer
# var: x = core.Integer
# import: geo
# module: geo
---
x + y
---
error: E100: undeclared identifier `y`
===
```

The lines after the second `---` are the expected errors, one to a line. `# skip: reason` sets a
case aside. Lines between cases are ignored. -/

namespace ExprVet.Scenario

/-- What one line before the snippet asks for. -/
inductive Directive where
  | type (type : SemanticType)
  | variable (name : String) (type : SemanticType)
  | import (name : String)
  | module (id : ModuleId)
  | skip (reason : String)
  deriving Repr

/-- Why a line before the snippet asks for nothing. -/
inductive Problem where
  | notADirective (line : String)
  | variableWithoutType (value : String)
  | unknownDirective (key : String)
  deriving DecidableEq, Repr

def Problem.message : Problem → String
  | notADirective line => "not a directive: " ++ line
  | variableWithoutType value => "var needs `name = type`: " ++ value
  | unknownDirective key => "unknown directive `" ++ key ++ "`"

/-- The key and the value of a line `# key: value`. -/
def keyValue? : List Char → Option (String × List Char)
  | '#' :: rest =>
      (Text.cutAt? (· == ':') rest).map fun (key, value) =>
        (String.ofList (Text.trim key), Text.trim value)
  | _ => none

/-- Reads a line without blanks at its ends. -/
def Directive.read (line : List Char) : Except Problem Directive :=
  match keyValue? line with
  | none => .error (.notADirective (String.ofList line))
  | some (key, chars) =>
      let value := String.ofList chars
      match key with
      | "type" => .ok (.type (.ofName value))
      | "import" => .ok (.import value)
      | "module" => .ok (.module value)
      | "skip" => .ok (.skip value)
      | "var" =>
          match Text.cutAt? (· == '=') chars with
          | some (before, after) =>
              .ok (.variable (String.ofList (Text.trim before))
                (.ofName (String.ofList (Text.trim after))))
          | none => .error (.variableWithoutType value)
      | key => .error (.unknownDirective key)

structure Case where
  name : String
  /-- The line of the file on which the case begins, counted from one. -/
  line : Nat
  expectedType : SemanticType
  declarations : List (String × SemanticType)
  imports : List String
  modules : List ModuleId
  /-- Why the case is set aside, if it is. -/
  skip : Option String
  input : String
  /-- The expected validation errors as lines. -/
  expected : List String
  problems : List Problem
  deriving Repr

namespace Case

/-- A case without directives. -/
def named (name : String) (line : Nat) : Case :=
  ⟨name, line, .object, [], [], [], none, "", [], []⟩

def apply (case : Case) : Directive → Case
  | .type type => { case with expectedType := type }
  | .variable name type => { case with declarations := case.declarations ++ [(name, type)] }
  | .import name => { case with imports := case.imports ++ [name] }
  | .module id => { case with modules := case.modules ++ [id] }
  | .skip reason => { case with skip := some reason }

/-- Takes in one line before the snippet. -/
def addLine (case : Case) (line : List Char) : Case :=
  if line.isEmpty then case
  else
    match Directive.read line with
    | .ok directive => case.apply directive
    | .error problem => { case with problems := case.problems ++ [problem] }

end Case

/-- The lines up to one that is `stop` apart from blanks at its ends, and the lines after that one.
-/
def splitAtLine (stop : List Char) (lines : List (List Char)) :
    List (List Char) × List (List Char) :=
  let before := lines.takeWhile (Text.trim · ≠ stop)
  (before, (lines.drop before.length).tail)

theorem length_splitAtLine_le (stop : List Char) (lines : List (List Char)) :
    (splitAtLine stop lines).2.length ≤ lines.length := by
  simp only [splitAtLine, List.length_tail, List.length_drop]
  omega

/-- The name that a line gives if it begins a case. -/
def header? (line : List Char) : Option String :=
  let start := "# test:".toList
  let line := Text.trim line
  if start.isPrefixOf line then some (String.ofList (Text.trim (line.drop start.length))) else none

/-- The cases on the lines that are left of a file with `total` lines. -/
def readFrom (total : Nat) : List (List Char) → List Case
  | [] => []
  | line :: rest =>
      match header? line with
      | none => readFrom total rest
      | some name =>
          let directives := splitAtLine "---".toList rest
          let input := splitAtLine "---".toList directives.2
          let expected := splitAtLine "===".toList input.2
          let case := (directives.1.map Text.trim).foldl Case.addLine
            (.named name (total - rest.length))
          { case with
            input := String.ofList (['\n'].intercalate input.1)
            expected := ((expected.1.map Text.trim).filter (!·.isEmpty)).map String.ofList } ::
            readFrom total expected.2
termination_by lines => lines.length
decreasing_by
  · simp
  · have h₁ := length_splitAtLine_le "---".toList rest
    have h₂ := length_splitAtLine_le "---".toList (splitAtLine "---".toList rest).2
    have h₃ := length_splitAtLine_le "===".toList
      (splitAtLine "---".toList (splitAtLine "---".toList rest).2).2
    simp only [List.length_cons]
    omega

/-- The cases of a scenario file. -/
def read (content : String) : List Case :=
  let lines := Text.lines content.toList
  readFrom lines.length lines

end ExprVet.Scenario
