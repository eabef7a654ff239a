import ExprVet.Data.Ordered
import ExprVet.SemanticType

/-! # The host of a snippet

A snippet belongs to an activity of a workflow. Activities are nested, and what one declares,
namespace imports and modules, holds for all activities below it. Variables live in nested scopes,
an inner declaration hiding an outer one of the same name. -/

namespace ExprVet

open Data

/-- The imports and modules in effect for a snippet. -/
structure HostContext where
  imports : List String
  modules : List ModuleId
  deriving DecidableEq, Repr

/-- A host that declares nothing. -/
def HostContext.none : HostContext := ⟨[], []⟩

structure ActivityNode where
  name : String
  imports : List String
  modules : List ModuleId
  deriving DecidableEq, Repr

/-- An activity with the activities around it, outermost first. -/
structure Activity where
  ancestors : List ActivityNode
  node : ActivityNode
  deriving DecidableEq, Repr

namespace Activity

/-- The activities from the root down to this one. -/
def chain (activity : Activity) : List ActivityNode := activity.ancestors ++ [activity.node]

/-- The activity around this one. -/
def parent? (activity : Activity) : Option ActivityNode := activity.ancestors.getLast?

/-- The names from the root down to this activity. -/
def path (activity : Activity) : List String := activity.chain.map (·.name)

/-- Declarations are collected from the root down, each kept where it comes first. -/
def context (activity : Activity) : HostContext :=
  ⟨(activity.chain.flatMap (·.imports)).eraseDups, (activity.chain.flatMap (·.modules)).eraseDups⟩

end Activity

/-- The variables declared in one scope, the latest first. -/
abbrev Frame := List (String × SemanticType)

/-- Nested scopes. The outermost one is always there. -/
structure VariableScope where
  /-- The scopes inside the outermost one, innermost first. -/
  inner : List Frame
  outermost : Frame
  deriving Repr

namespace VariableScope

def empty : VariableScope := ⟨[], []⟩

/-- All scopes, innermost first. -/
def frames (scope : VariableScope) : List Frame := scope.inner ++ [scope.outermost]

def depth (scope : VariableScope) : Nat := scope.frames.length

def push (scope : VariableScope) : VariableScope := { scope with inner := [] :: scope.inner }

/-- Leaves the innermost scope; the outermost one is never left. -/
def pop (scope : VariableScope) : VariableScope := { scope with inner := scope.inner.tail }

/-- Declares a variable in the innermost scope. -/
def declare (scope : VariableScope) (name : String) (type : SemanticType) : VariableScope :=
  match scope.inner with
  | [] => { scope with outermost := (name, type) :: scope.outermost }
  | frame :: rest => { scope with inner := ((name, type) :: frame) :: rest }

def declareAll (scope : VariableScope) (declarations : List (String × SemanticType)) :
    VariableScope :=
  declarations.foldl (fun scope (name, type) => scope.declare name type) scope

/-- The type of a variable in the innermost scope that declares it. -/
def lookup (scope : VariableScope) (name : String) : Option SemanticType :=
  scope.frames.findSome? fun frame => frame.lookup name

/-- Every declared name once, in order. -/
def visibleNames (scope : VariableScope) : List String :=
  ordered (scope.frames.flatMap fun frame => frame.map Prod.fst)

@[simp] theorem lookup_push (scope : VariableScope) (name : String) :
    scope.push.lookup name = scope.lookup name := rfl

@[simp] theorem pop_push (scope : VariableScope) : scope.push.pop = scope := rfl

theorem lookup_declare_self (scope : VariableScope) (name : String) (type : SemanticType) :
    (scope.declare name type).lookup name = some type := by
  cases h : scope.inner <;> simp [declare, lookup, frames, h]

end VariableScope

end ExprVet
