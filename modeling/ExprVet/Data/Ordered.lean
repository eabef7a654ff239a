/-! # Lists ordered by a key

Lists whose items have strictly increasing text keys stand for finite maps and sets. Insertion comes
in two forms: an item already there with the same key stays, or it is replaced. -/

namespace ExprVet.Data

variable {α : Type}

/-- Inserts an item unless one with its key is there. -/
def insertNew (key : α → String) (x : α) : List α → List α
  | [] => [x]
  | y :: ys =>
      if key x < key y then x :: y :: ys
      else if key y < key x then y :: insertNew key x ys
      else y :: ys

/-- Inserts an item in place of the one with its key, if there is one. -/
def insertOver (key : α → String) (x : α) : List α → List α
  | [] => [x]
  | y :: ys =>
      if key x < key y then x :: y :: ys
      else if key y < key x then y :: insertOver key x ys
      else x :: ys

/-- The item with a key. -/
def findKey? (key : α → String) (k : String) (xs : List α) : Option α := xs.find? (key · == k)

/-- Inserts items whose keys are not there yet, one after the other, and counts them. -/
def insertAllNew (key : α → String) (all : List α) : List α → Nat × List α
  | [] => (0, all)
  | x :: xs =>
      if (findKey? key (key x) all).isSome then insertAllNew key all xs
      else
        let (added, all) := insertAllNew key (insertNew key x all) xs
        (added + 1, all)

/-- The texts of a list in increasing order, each once. -/
def ordered (xs : List String) : List String := xs.foldl (fun acc x => insertNew id x acc) []

end ExprVet.Data
