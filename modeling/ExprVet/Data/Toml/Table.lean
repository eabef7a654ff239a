import ExprVet.Data.Value

/-! # Tables that grow

The statements of a document build up one table. How a part of it came about decides what may still
be added: a table with a header of its own is not opened again and not extended by dotted keys, one
that dotted keys made is extended by dotted keys only, and values in braces or brackets are
complete. -/

namespace ExprVet.Data.Toml

/-- How a table came about. -/
inductive Origin where
  /-- By a header of its own. -/
  | header
  /-- By the header of a table inside it. -/
  | implied
  | dotted
  deriving DecidableEq, Repr

inductive Node where
  | value (value : Value)
  | table (origin : Origin) (entries : List (String × Node))
  /-- A list of tables, of which the last one still grows. -/
  | tables (earlier : List Value) (last : List (String × Node))
  deriving Repr, Inhabited

abbrev Entries := List (String × Node)

mutual

def Node.toValue : Node → Value
  | .value value => value
  | .table _ entries => .table (entriesToValues entries)
  | .tables earlier last => .list (earlier ++ [.table (entriesToValues last)])

def entriesToValues : Entries → List (String × Value)
  | [] => []
  | (key, node) :: entries => (key, node.toValue) :: entriesToValues entries

end

namespace Entries

/-- Changes the entry of a key, or makes one at the end. -/
def alter (key : String) (change : Option Node → Option Node) : Entries → Option Entries
  | [] => (change none).map fun node => [(key, node)]
  | (k, node) :: entries =>
      if k = key then (change (some node)).map fun node => (k, node) :: entries
      else (alter key change entries).map ((k, node) :: ·)

/-- Changes the table at a path of headers. Tables on the way are made where there are none, and of
a list of tables the last one is meant. -/
def under (change : Entries → Option Entries) : List String → Entries → Option Entries
  | [], entries => change entries
  | key :: path, entries => alter key (fun
      | none => (under change path []).map (.table .implied)
      | some (.table origin inner) => (under change path inner).map (.table origin)
      | some (.tables earlier last) => (under change path last).map (.tables earlier)
      | some (.value _) => none) entries

/-- Opens a table by its header. -/
def openTable (path : List String) (key : String) (entries : Entries) : Option Entries :=
  entries.under (alter key fun
    | none => some (.table .header [])
    | some (.table .implied inner) => some (.table .header inner)
    | some _ => none) path

/-- Opens one more table of a list by its header. -/
def openNext (path : List String) (key : String) (entries : Entries) : Option Entries :=
  entries.under (alter key fun
    | none => some (.tables [] [])
    | some (.tables earlier last) => some (.tables (earlier ++ [.table (entriesToValues last)]) [])
    | some _ => none) path

/-- Adds a value under a dotted key. The table that takes it must have been made by dotted keys,
unless the key has no dots. -/
def put (value : Value) : List String → Entries → Option Entries
  | [], _ => none
  | [key], entries => alter key (fun
      | none => some (.value value)
      | some _ => none) entries
  | key :: path, entries => alter key (fun
      | none => (put value path []).map (.table .dotted)
      | some (.table .header _) => none
      | some (.table origin inner) =>
          if path.length = 1 ∧ origin ≠ .dotted then none
          else (put value path inner).map (.table origin)
      | some (.tables earlier last) =>
          if path.length = 1 then none else (put value path last).map (.tables earlier)
      | some (.value _) => none) entries

/-- Adds values under dotted keys one after another. -/
def putAll (entries : Entries) : List (List String × Value) → Option Entries
  | [] => some entries
  | (path, value) :: rest => do putAll (← put value path entries) rest

end Entries

end ExprVet.Data.Toml
