import Primer.Proofs.Machine.ScopeGraph
import Primer.Proofs.Program.Occurrence

/-!
# Worlds without one binding

A world can be looked at without the binding that one of its scopes has for a name. Looking another
name up and binding another name are the same with or without it. Which functions are left to be
found when the binding is out of sight is a matter of reachability: along parents, bindings and
closures.
-/

namespace Primer

/-! ### Names in programs -/

namespace Node

/-- The names a node carries itself: what it looks up, binds or takes for parameters. -/
def names : Node → List String
  | .variable ident => [ident.name]
  | .assign target _ _ => [target.name]
  | .forLoop counter _ _ _ _ _ => [counter.name]
  | .function name params _ _ => (name.toList ++ params).map Ident.name
  | _ => []

/-- The name stands somewhere in the syntax tree of the node. -/
def Mentions (node : Node) (name : String) : Prop :=
  ∃ part : Node, part.PartOf node ∧ name ∈ part.names

theorem not_mentions_iff {node : Node} {name : String} : ¬node.Mentions name ↔
    name ∉ node.names ∧ ∀ part ∈ node.parts, ¬part.Mentions name := by
  simp only [Mentions, not_exists, not_and]
  exact forall_partOf_iff

theorem mem_names_of_bound? {node : Node} {name : String} (bound : node.bound? = some name) :
    name ∈ node.names := by
  cases node with
  | assign | forLoop => exact List.mem_singleton.mpr (Option.some.inj bound).symm
  | function ident params =>
    obtain ⟨ident, rfl, rfl⟩ := Option.map_eq_some_iff.mp bound
    simp [names]
  | _ => cases bound

end Node

/-- The name stands in the body of the function or among its parameters. -/
def Function.Mentions (f : Function) (name : String) : Prop :=
  name ∈ f.params ∨ ∃ statement ∈ f.body.statements, statement.Mentions name

/-! ### A scope without a name -/

namespace Scope

/-- The scope with no binding of the name. -/
def without (name : String) (scope : Scope) : Scope :=
  { scope with bindings := scope.bindings.filter (·.1 != name) }

variable {name other : String} (scope : Scope) (value : Value)

theorem own?_without (different : other ≠ name) :
    (scope.without name).own? other = scope.own? other := by
  simp only [without, own?]
  induction scope.bindings with
  | nil => rfl
  | cons first rest ih =>
    obtain ⟨bound, held⟩ := first
    by_cases hidden : bound = name
    · -- The binding is left out, and it is not the one that is looked for.
      have miss : (other == bound) = false := by simp [hidden, different]
      simp [hidden, List.lookup_cons, hidden ▸ miss, ih]
    · simp [hidden, List.lookup_cons, ih]

theorem without_set (different : other ≠ name) :
    (scope.set other value).without name = (scope.without name).set other value := by
  simp only [without, set, Scope.mk.injEq, and_true]
  induction scope.bindings with
  | nil => simp [bind, different]
  | cons first rest ih =>
    obtain ⟨bound, held⟩ := first
    by_cases found : bound = other
    · simp [bind, found, different]
    · by_cases hidden : bound = name
      · simp [bind, hidden, hidden ▸ found, ih]
      · simp [bind, found, hidden, ih]

/-- A name that is left out may as well have been bound to something else. -/
theorem without_set_self : (scope.set name value).without name = scope.without name := by
  simp only [without, set, Scope.mk.injEq, and_true]
  induction scope.bindings with
  | nil => simp [bind]
  | cons first rest ih =>
    obtain ⟨bound, held⟩ := first
    by_cases found : bound = name
    · simp [bind, found]
    · simp [bind, found, ih]

end Scope

namespace Scopes

/-- The scopes, of which one has no binding of the name. -/
def without (top : ScopeId) (name : String) (scopes : Scopes) : Scopes :=
  scopes.modify top (Scope.without name)

variable {top : ScopeId} {name other : String} (scopes : Scopes)

@[simp] theorem size_without : (scopes.without top name).size = scopes.size := by
  simp [without]

theorem getElem?_without (id : ScopeId) : (scopes.without top name)[id]?
    = scopes[id]?.map fun scope => if top = id then scope.without name else scope := by
  rw [without, Array.getElem?_modify]
  split <;> simp

/-- A name other than the hidden one is found as before: the scope that is changed has the same
parent and the same bindings of other names. -/
theorem find?_without (different : other ≠ name) (steps : Nat) (id : ScopeId) :
    (scopes.without top name).find? other steps id = scopes.find? other steps id := by
  induction steps generalizing id with
  | zero => rfl
  | succ steps ih =>
    simp only [find?, getElem?_without]
    cases scopes[id]? with
    | none => rfl
    | some scope =>
      have own :
          (if top = id then scope.without name else scope).own? other = scope.own? other := by
        split
        · exact scope.own?_without different
        · rfl
      have parent : (if top = id then scope.without name else scope).parent = scope.parent := by
        split <;> rfl
      simp only [Option.map_some, own, parent, ih]

theorem get?_without (different : other ≠ name) (id : ScopeId) :
    (scopes.without top name).get? id other = scopes.get? id other :=
  scopes.find?_without different (id + 1) id

theorem without_set (id : ScopeId) (value : Value) (different : other ≠ name) :
    (scopes.set id other value).without top name
      = (scopes.without top name).set id other value := by
  apply Array.ext
  · simp [without, set]
  · intro index inside inside'
    simp only [without, set, Array.getElem_modify]
    split <;> split <;> simp [Scope.without_set _ _ different]

theorem without_set_self (value : Value) :
    (scopes.set top name value).without top name = scopes.without top name := by
  apply Array.ext
  · simp [without, set]
  · intro index inside inside'
    simp only [without, set, Array.getElem_modify]
    split <;> simp [Scope.without_set_self]

theorem without_push (scope : Scope) (inside : top < scopes.size) :
    without top name (scopes.push scope) = (scopes.without top name).push scope := by
  apply Array.ext
  · simp [without]
  · intro index within within'
    simp only [without, Array.getElem_modify, Array.getElem_push, Array.size_modify]
    by_cases last : index < scopes.size
    · simp [last]
    · have distinct : top ≠ index := fun same => last (same ▸ inside)
      simp [last, distinct]

/-! ### What the hidden binding holds -/

theorem ownAt?_set (id : ScopeId) (value : Value) (different : other ≠ name) :
    (scopes.set id other value).ownAt? name top = scopes.ownAt? name top := by
  simp only [ownAt?, set, Array.getElem?_modify]
  split
  · cases scopes[top]? with
    | none => rfl
    | some scope => simp [Scope.own?_set, different.symm]
  · rfl

theorem ownAt?_set_self (value : Value) (inside : top < scopes.size) :
    (scopes.set top name value).ownAt? name top = some value := by
  have here := Array.getElem?_eq_getElem inside
  simp only [ownAt?, set, Array.getElem?_modify, if_true, here, Option.map_some, Option.bind_some,
    Scope.own?_set]

theorem ownAt?_push (scope : Scope) (inside : top < scopes.size) :
    ownAt? (scopes.push scope) name top = scopes.ownAt? name top := by
  simp [ownAt?, Array.getElem?_push, Nat.ne_of_lt inside]

end Scopes

/-! ### What is left within reach -/

/-- The function stands in the value, by itself or in a list. -/
inductive Value.Contains : Value → Function → Prop
  | self (f : Function) : Contains (.function f) f
  | element {elements : List Value} {element : Value} {f : Function} (member : element ∈ elements)
      (inside : Contains element f) : Contains (.list elements) f

theorem Value.every_of_contains {holds : Function → Prop} (value : Value)
    (each : ∀ f, value.Contains f → holds f) : value.Every holds := by
  cases value with
  | number x => exact .number x
  | string x => exact .string x
  | native x => exact .native x
  | function f => exact .function (each f (.self f))
  | list elements =>
    refine .list fun element member => ?_
    exact every_of_contains element fun f inside => each f (.element member inside)

namespace Scopes

/-- The scopes that one can get to from a scope without its binding of a name, and from the scope of
programs: along parents, and from functions to where they were created. -/
inductive Reached (scopes : Scopes) (globals top : ScopeId) (name : String) : ScopeId → Prop
  | start : Reached scopes globals top name top
  | programs : Reached scopes globals top name globals
  | up {id parent : ScopeId} {scope : Scope} (reached : Reached scopes globals top name id)
      (here : scopes[id]? = some scope) (above : scope.parent = some parent) :
      Reached scopes globals top name parent
  | closure {id : ScopeId} {scope : Scope} {binding : String × Value} {f : Function}
      (reached : Reached scopes globals top name id) (here : scopes[id]? = some scope)
      (bound : binding ∈ scope.bindings) (seen : id = top → binding.1 ≠ name)
      (inside : binding.2.Contains f) : Reached scopes globals top name f.closure

/-- The functions that one can get at from a scope without its binding of a name, and from the scope of
programs. -/
def ReachesFunction (scopes : Scopes) (globals top : ScopeId) (name : String) (f : Function) : Prop :=
  ∃ id scope, scopes.Reached globals top name id ∧ scopes[id]? = some scope ∧
    ∃ binding ∈ scope.bindings, (id = top → binding.1 ≠ name) ∧ binding.2.Contains f

/-- The way up from a scope within reach is within reach. -/
theorem Ancestry.reached {scopes : Scopes} {id globals top : ScopeId} {chain : List ScopeId}
    {name : String} (ancestry : scopes.Ancestry id chain)
    (reached : scopes.Reached globals top name id) : scopes.Reached globals top name 0 := by
  induction ancestry with
  | top => exact reached
  | up here above _ ih => exact ih (.up reached here above)

/-- The scope of programs adds nothing to what is within reach, if the way up ends in it. -/
theorem Ancestry.reached_iff {scopes : Scopes} {top id : ScopeId} {chain : List ScopeId}
    {name : String} (ancestry : scopes.Ancestry top chain) :
    scopes.Reached 0 top name id ↔ scopes.Reached top top name id := by
  constructor
  · intro reached
    induction reached with
    | start => exact .start
    | programs => exact ancestry.reached .start
    | up _ here above ih => exact .up ih here above
    | closure _ here bound seen inside ih => exact .closure ih here bound seen inside
  · intro reached
    induction reached with
    | start | programs => exact .start
    | up _ here above ih => exact .up ih here above
    | closure _ here bound seen inside ih => exact .closure ih here bound seen inside

theorem Ancestry.reachesFunction_iff {scopes : Scopes} {top : ScopeId} {chain : List ScopeId}
    {name : String} {f : Function} (ancestry : scopes.Ancestry top chain) :
    scopes.ReachesFunction 0 top name f ↔ scopes.ReachesFunction top top name f := by
  simp only [ReachesFunction, ancestry.reached_iff]

end Scopes

end Primer
