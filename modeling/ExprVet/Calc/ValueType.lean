import ExprVet.Calc.Expr
import ExprVet.ModuleInfo

/-! # Types of calc values

Besides the primitive types there are the types that referenced modules export. A value may be used
where a wider type is expected: any value as `Any`, an integer as a float, a value of an exported
type where one of its bases is expected, directly or through other bases. -/

namespace ExprVet.Calc

inductive ValueType where
  | int
  | float
  | bool
  | str
  /-- The type that every value has. -/
  | any
  | named (name : String) (args : List ValueType)
  /-- Stands for a type after a mistake, so that the mistake is reported once. -/
  | unknown
  deriving Repr

namespace ValueType

mutual

protected def decEq : (a b : ValueType) → Decidable (a = b)
  | int, int | float, float | bool, bool | str, str | any, any | unknown, unknown => isTrue rfl
  | named n xs, named m ys =>
      if hn : n = m then
        match ValueType.decEqList xs ys with
        | isTrue h => isTrue (by rw [hn, h])
        | isFalse h => isFalse fun e => h (ValueType.named.inj e).2
      else isFalse fun e => hn (ValueType.named.inj e).1
  | int, float | int, bool | int, str | int, any | int, named _ _ | int, unknown
  | float, int | float, bool | float, str | float, any | float, named _ _ | float, unknown
  | bool, int | bool, float | bool, str | bool, any | bool, named _ _ | bool, unknown
  | str, int | str, float | str, bool | str, any | str, named _ _ | str, unknown
  | any, int | any, float | any, bool | any, str | any, named _ _ | any, unknown
  | named _ _, int | named _ _, float | named _ _, bool | named _ _, str | named _ _, any
  | named _ _, unknown
  | unknown, int | unknown, float | unknown, bool | unknown, str | unknown, any
  | unknown, named _ _ => isFalse nofun

protected def decEqList : (xs ys : List ValueType) → Decidable (xs = ys)
  | [], [] => isTrue rfl
  | [], _ :: _ | _ :: _, [] => isFalse nofun
  | x :: xs, y :: ys =>
      match ValueType.decEq x y, ValueType.decEqList xs ys with
      | isTrue hx, isTrue hxs => isTrue (by rw [hx, hxs])
      | isFalse hx, _ => isFalse fun e => hx (List.cons.inj e).1
      | _, isFalse hxs => isFalse fun e => hxs (List.cons.inj e).2

end

instance : DecidableEq ValueType := ValueType.decEq

def isNumeric : ValueType → Bool
  | int | float => true
  | _ => false

mutual

/-- The type as it is named in messages. -/
def text : ValueType → String
  | int => "Int"
  | float => "Float"
  | bool => "Bool"
  | str => "Str"
  | any => "Any"
  | named name args => applied name (texts args)
  | unknown => "\x7bunknown\x7d"

def texts : List ValueType → List String
  | [] => []
  | type :: types => type.text :: texts types

end

/-- The primitive type with a name. -/
def primitive? : String → Option ValueType
  | "Int" => some int
  | "Float" => some float
  | "Bool" => some bool
  | "Str" => some str
  | "Any" => some any
  | _ => none

end ValueType

/-- Exported types with the names of their direct bases. The first entry of a name counts. -/
abbrev Exports := List (String × List String)

namespace Exports

/-- The types that some modules export; of two with one name the later counts. -/
def ofModules (modules : List ModuleInfo) : Exports :=
  ((modules.flatMap (·.types)).map fun type => (type.name, type.bases)).reverse

theorem countP_unseen_lt {exports : Exports} {seen bases : List String} {name : String}
    (hseen : name ∉ seen) (hlookup : exports.lookup name = some bases) :
    exports.countP (fun entry => entry.1 ∉ name :: seen) <
      exports.countP (fun entry => entry.1 ∉ seen) := by
  induction exports with
  | nil => simp at hlookup
  | cons entry exports ih =>
      have hle : exports.countP (fun entry => entry.1 ∉ name :: seen) ≤
          exports.countP (fun entry => entry.1 ∉ seen) :=
        List.countP_mono_left fun e _ h => by simp_all
      rw [List.countP_cons, List.countP_cons]
      by_cases h : entry.1 = name
      · subst h
        rw [if_neg (by simp), if_pos (by simpa using hseen)]
        omega
      · have hne : (name == entry.1) = false := by simpa using fun e => h e.symm
        rw [List.lookup_cons, hne] at hlookup
        have hlt := ih hlookup
        have hsame : (entry.1 ∉ name :: seen) ↔ (entry.1 ∉ seen) := by simp [h]
        simp only [hsame]
        omega

/-- Whether `target` is a direct base of one of the named types, or of one of their exported bases
and so on. Types in `seen` need not be looked at again. -/
def reaches (exports : Exports) (target : String) (seen : List String) : List String → Bool
  | [] => false
  | name :: rest =>
      if _seen : name ∈ seen then reaches exports target seen rest
      else
        match _lookup : exports.lookup name with
        | none => reaches exports target seen rest
        | some bases =>
            bases.contains target || reaches exports target (name :: seen) (bases ++ rest)
termination_by names => (exports.countP fun entry => entry.1 ∉ seen, names.length)
decreasing_by
  · exact Prod.Lex.right _ (by simp)
  · exact Prod.Lex.right _ (by simp)
  · exact Prod.Lex.left _ _ (countP_unseen_lt _seen _lookup)

/-- Whether a type has another among its bases, directly or not. -/
def derivesFrom (exports : Exports) (name target : String) : Bool :=
  reaches exports target [] [name]

/-- Whether a value of one type may be used where another is expected. -/
def assignable (exports : Exports) (source target : ValueType) : Bool :=
  match source, target with
  | .unknown, _ | _, .unknown | _, .any => true
  | .int, .float => true
  | .named name _, .named base _ => source = target || derivesFrom exports name base
  | _, _ => source = target

end Exports

end ExprVet.Calc
