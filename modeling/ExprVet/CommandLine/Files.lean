import ExprVet.Text.Blank

/-! # Files and paths

A path leads through a tree of folders to a file, one step for each part between slashes. Where it
does not lead to a file that can be read, the cause tells why. -/

namespace ExprVet.CommandLine

/-- Why a file cannot be read. -/
inductive FileError where
  | notFound
  /-- The path goes on behind a file. -/
  | notAFolder
  | isAFolder
  | nameTooLong
  | notPermitted
  | other (text : String)
  deriving DecidableEq, Repr

namespace FileError

def message : FileError → String
  | notFound => "No such file or directory (os error 2)"
  | notAFolder => "Not a directory (os error 20)"
  | isAFolder => "Is a directory (os error 21)"
  | nameTooLong => "File name too long (os error 36)"
  | notPermitted => "Permission denied (os error 13)"
  | other text => text

/-- Whether nothing at all is at the path. -/
def isAbsence : FileError → Bool
  | notFound | notAFolder | nameTooLong => true
  | isAFolder | notPermitted | other _ => false

end FileError

inductive FileTree where
  | file (text : String)
  | folder (entries : List (String × FileTree))
  deriving Repr, Inhabited

namespace FileTree

/-- The most bytes that one part of a path may have. -/
def maxNameBytes : Nat := 255

/-- The most bytes that a whole path may have. -/
def maxPathBytes : Nat := 4095

/-- Where the parts of a path lead from a place, which is given with the folders around it, the
innermost first. The outermost folder is around itself. -/
def follow (place : FileTree) (around : List FileTree) : List String → Except FileError FileTree
  | [] => .ok place
  | part :: parts =>
      match place with
      | file _ => .error .notAFolder
      | folder entries =>
          if part = "" ∨ part = "." then follow place around parts
          else if part = ".." then
            match around with
            | [] => follow place [] parts
            | outer :: around => follow outer around parts
          else if maxNameBytes < part.utf8ByteSize then .error .nameTooLong
          else
            match entries.lookup part with
            | none => .error .notFound
            | some next => follow next (place :: around) parts

/-- The parts of a path. One that starts with a slash starts with an empty part, and one that ends
with a slash ends with one. -/
def parts (path : List Char) : List String := (path.splitOn '/').map String.ofList

/-- The text of the file at a path. A path that does not start with a slash leads from the folder
`here`, which is given with the folders around it up to the root. -/
def read (root here : FileTree) (around : List FileTree) (path : String) :
    Except FileError String := do
  if maxPathBytes < path.utf8ByteSize then .error .nameTooLong
  let parts := parts path.toList
  let found ← if parts.head? = some "" then follow root [] parts else follow here around parts
  match found with
  | file text => .ok text
  | folder _ => .error .isAFolder

end FileTree

end ExprVet.CommandLine
