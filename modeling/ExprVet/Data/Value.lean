/-! # Structured data

Configuration files and requests are trees of data: scalars, lists and tables. This module holds the
trees, and the readers that turn a tree into a value of the library when it has the right shape. -/

namespace ExprVet.Data

inductive Value where
  | null
  | bool (value : Bool)
  | int (value : Int)
  /-- A scalar whose value nothing in the library asks for, such as a date or a fraction. -/
  | opaqueScalar
  | str (value : String)
  | list (items : List Value)
  | table (entries : List (String × Value))
  deriving Repr, Inhabited

namespace Value

mutual

/-- How deep a tree of data is nested. -/
def depth : Value → Nat
  | list items => depthOfItems items + 1
  | table entries => depthOfEntries entries + 1
  | _ => 1

def depthOfItems : List Value → Nat
  | [] => 0
  | item :: items => max item.depth (depthOfItems items)

def depthOfEntries : List (String × Value) → Nat
  | [] => 0
  | (_, value) :: entries => max value.depth (depthOfEntries entries)

end

/-- The value of the last entry with a key, in a table. -/
def get? (key : String) : Value → Option Value
  | table entries => entries.reverse.lookup key
  | _ => none

def toBool? : Value → Option Bool
  | bool value => some value
  | _ => none

def toStr? : Value → Option String
  | str value => some value
  | _ => none

/-- A number of bytes. -/
def toNat? : Value → Option Nat
  | int (.ofNat n) => if n < Nat.pow 2 64 then some n else none
  | _ => none

def toList? {α : Type} (item : Value → Option α) : Value → Option (List α)
  | list items => items.mapM item
  | _ => none

/-- The fields of a record, which is a table or a list of its first fields in order. A list with
more items than fields is a record only if a surplus is let pass. -/
def fields? (surplus : Bool) (keys : List String) : Value → Option (String → Option Value)
  | table entries => some fun key => entries.reverse.lookup key
  | list items =>
      if surplus || items.length ≤ keys.length then some fun key => (keys.zip items).lookup key
      else none
  | _ => none

/-- Whether a record that is written as a list has so many fields. -/
def listsAtLeast (count : Nat) : Value → Bool
  | list items => count ≤ items.length
  | _ => true

/-- A field that must be there. -/
def required {α : Type} (read : Value → Option α) (field : Option Value) : Option α :=
  field.bind read

/-- A field that has a value even when it is left out. -/
def withDefault {α : Type} (default : α) (read : Value → Option α) : Option Value → Option α
  | none => some default
  | some value => read value

/-- A field that may be left out or null. -/
def nullable {α : Type} (read : Value → Option α) : Option Value → Option (Option α)
  | none | some .null => some none
  | some value => (read value).map some

end Value

end ExprVet.Data
