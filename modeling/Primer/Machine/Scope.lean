import Primer.Value.Basic

/-!
# Scopes

Names are bound in scopes. A scope has at most one parent, in which a name is looked up when the scope
itself does not bind it; binding a name always concerns the scope itself. All scopes ever made are kept
in one array, so a function keeps the scope it was created in by keeping its index.
-/

namespace Primer

structure Scope where
  bindings : List (String × Value)
  parent : Option ScopeId

namespace Scope

def empty (parent : Option ScopeId) : Scope :=
  ⟨[], parent⟩

/-- Replaces the binding of a name or adds one behind the others. -/
def bind (name : String) (value : Value) : List (String × Value) → List (String × Value)
  | [] => [(name, value)]
  | (bound, old) :: rest =>
    if bound = name then (bound, value) :: rest else (bound, old) :: bind name value rest

def set (scope : Scope) (name : String) (value : Value) : Scope :=
  { scope with bindings := bind name value scope.bindings }

/-- The value the scope itself binds a name to. -/
def own? (scope : Scope) (name : String) : Option Value :=
  scope.bindings.lookup name

/-- Binds several names, later ones over earlier ones. -/
def setAll (scope : Scope) (bindings : List (String × Value)) : Scope :=
  bindings.foldl (fun scope (name, value) => scope.set name value) scope

/-- The scope of programs: the constants and the built-in functions. -/
def global : Scope :=
  (empty none).setAll
    ([("null", .null), ("false", .ofBool false), ("true", .ofBool true)]
      ++ Native.all.map fun native => (native.name, .native native))

/-- The bindings in the order of their names. -/
def sorted (scope : Scope) : List (String × Value) :=
  scope.bindings.mergeSort fun a b => !(b.1 < a.1)

/-- The bindings that a fresh scope of programs does not have, in the order of their names. -/
def additions (scope : Scope) : List (String × Value) :=
  scope.sorted.filter fun (name, value) =>
    match global.own? name with
    | some standard => !value.same standard
    | none => true

end Scope

/-- All scopes, in the order in which they were made. -/
abbrev Scopes := Array Scope

namespace Scopes

/-- Looks a name up in a scope and its ancestors. A parent is older than its children, so an index
bounds the length of the way up. -/
def find? (scopes : Scopes) (name : String) : Nat → ScopeId → Option Value
  | 0, _ => none
  | steps + 1, id =>
    match scopes[id]? with
    | none => none
    | some scope =>
      match scope.own? name with
      | some value => some value
      | none =>
        match scope.parent with
        | some parent => find? scopes name steps parent
        | none => none

/-- The value of a name seen from a scope. -/
def get? (scopes : Scopes) (id : ScopeId) (name : String) : Option Value :=
  scopes.find? name (id + 1) id

/-- Binds a name in a scope. -/
def set (scopes : Scopes) (id : ScopeId) (name : String) (value : Value) : Scopes :=
  scopes.modify id fun scope => scope.set name value

end Scopes

end Primer
