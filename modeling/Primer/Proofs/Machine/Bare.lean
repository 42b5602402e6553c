import Mathlib
import Primer.Machine.Eval
import Primer.Proofs.Program.Bare

/-!
# The machine without places

Values hold spans in the bodies of functions, and errors and frames hold them openly. Bare forms have
none. No operation on values, scopes or the console looks at a span, so each of them can as well be
done on bare forms: it commutes with taking the spans away.
-/

namespace Primer

/-! ### Values -/

def Function.bare (function : Function) : Function :=
  { function with body := function.body.bare }

theorem Function.bare_eq_iff {function function' : Function} : function.bare = function'.bare ↔
    function.name = function'.name ∧ function.params = function'.params ∧
      function.body.bare = function'.body.bare ∧ function.closure = function'.closure := by
  simp [Function.bare]

mutual

/-- The value without the spans in the functions inside it. -/
def Value.bare : Value → Value
  | .number value => .number value
  | .string value => .string value
  | .list elements => .list (Value.bareAll elements)
  | .function value => .function value.bare
  | .native value => .native value

def Value.bareAll : List Value → List Value
  | [] => []
  | value :: rest => value.bare :: Value.bareAll rest

end

theorem Value.bareAll_eq_map (values : List Value) :
    Value.bareAll values = values.map Value.bare := by
  induction values with
  | nil => rfl
  | cons value rest ih => rw [bareAll, ih, List.map_cons]

mutual

@[simp] theorem Value.text_bare : (value : Value) → value.bare.text = value.text
  | .number _ | .string _ | .function _ | .native _ => rfl
  | .list elements => Value.joinedTexts_bareAll elements

theorem Value.joinedTexts_bareAll : (values : List Value) →
    Value.joinedTexts (Value.bareAll values) = Value.joinedTexts values
  | [] => rfl
  | [value] => value.text_bare
  | value :: next :: rest => by
    have tail := Value.joinedTexts_bareAll (next :: rest)
    simp only [Value.bareAll] at tail ⊢
    rw [Value.joinedTexts, Value.joinedTexts, tail, value.text_bare]

end

/-! ### Scopes -/

namespace Scope

def bareBinding (binding : String × Value) : String × Value :=
  (binding.1, binding.2.bare)

def bare (scope : Scope) : Scope :=
  ⟨scope.bindings.map bareBinding, scope.parent⟩

@[simp] theorem parent_bare (scope : Scope) : scope.bare.parent = scope.parent :=
  rfl

@[simp] theorem bare_empty (parent : Option ScopeId) : (empty parent).bare = empty parent :=
  rfl

@[simp] theorem own?_bare (scope : Scope) (name : String) :
    scope.bare.own? name = (scope.own? name).map Value.bare := by
  obtain ⟨bindings, parent⟩ := scope
  simp only [own?, bare]
  induction bindings with
  | nil => rfl
  | cons first rest ih =>
    obtain ⟨bound, value⟩ := first
    simp only [List.map_cons, List.lookup_cons, bareBinding]
    split
    · rfl
    · exact ih

theorem map_bind (name : String) (value : Value) (bindings : List (String × Value)) :
    (bind name value bindings).map bareBinding
      = bind name value.bare (bindings.map bareBinding) := by
  induction bindings with
  | nil => rfl
  | cons first rest ih =>
    simp only [bind, List.map_cons, bareBinding]
    split <;> simp [bareBinding, ih]

@[simp] theorem bare_set (scope : Scope) (name : String) (value : Value) :
    (scope.set name value).bare = scope.bare.set name value.bare := by
  simp [set, bare, map_bind]

theorem map_zip_bareBinding (names : List String) (values : List Value) :
    (names.zip values).map bareBinding = names.zip (values.map Value.bare) := by
  rw [List.zip_map_right]
  rfl

@[simp] theorem bare_setAll (scope : Scope) (bindings : List (String × Value)) :
    (scope.setAll bindings).bare = scope.bare.setAll (bindings.map bareBinding) := by
  induction bindings generalizing scope with
  | nil => rfl
  | cons first rest ih =>
    have rest := ih (scope.set first.1 first.2)
    rw [bare_set] at rest
    exact rest

end Scope

namespace Scopes

def bare (scopes : Scopes) : Scopes :=
  scopes.map Scope.bare

@[simp] theorem bare_set (scopes : Scopes) (id : ScopeId) (name : String) (value : Value) :
    (scopes.set id name value).bare = scopes.bare.set id name value.bare := by
  apply Array.ext
  · simp [bare, set]
  · intro index inside inside'
    simp only [bare, set, Array.getElem_map, Array.getElem_modify]
    split <;> simp

@[simp] theorem bare_push (scopes : Scopes) (scope : Scope) :
    bare (scopes.push scope) = scopes.bare.push scope.bare := by
  simp [bare]

theorem size_bare (scopes : Scopes) : scopes.bare.size = scopes.size := by
  simp [bare]

theorem find?_bare (scopes : Scopes) (name : String) (steps : Nat) (id : ScopeId) :
    scopes.bare.find? name steps id = (scopes.find? name steps id).map Value.bare := by
  induction steps generalizing id with
  | zero => rfl
  | succ steps ih =>
    simp only [find?, bare, Array.getElem?_map]
    cases scopes[id]? with
    | none => rfl
    | some scope =>
      simp only [Option.map_some, Scope.own?_bare, Scope.parent_bare]
      -- A binding of the scope itself counts first, then the way goes up to the parent.
      cases scope.own? name with
      | some value => rfl
      | none =>
        cases scope.parent with
        | none => rfl
        | some parent => exact ih parent

theorem get?_bare (scopes : Scopes) (id : ScopeId) (name : String) :
    scopes.bare.get? id name = (scopes.get? id name).map Value.bare :=
  scopes.find?_bare name (id + 1) id

end Scopes

/-! ### Built-in functions -/

namespace Native

theorem bare_callScope (globals : ScopeId) (values : List Value) :
    (callScope globals values).bare = callScope globals (values.map Value.bare) := by
  simp only [callScope, Scope.bare_setAll, Scope.bare_empty, List.map_map, List.zipIdx_map]
  rfl

theorem argumentsFrom_bare (scope : Scope) (index budget : Nat) :
    argumentsFrom scope.bare index budget = (argumentsFrom scope index budget).map Value.bare := by
  induction budget generalizing index with
  | zero => rfl
  | succ budget ih =>
    simp only [argumentsFrom, Scope.own?_bare]
    cases scope.own? (argumentName index) with
    | none => rfl
    | some value => simp [ih]

theorem arguments_bare (scope : Scope) : arguments scope.bare = (arguments scope).map Value.bare := by
  rw [arguments, argumentsFrom_bare, arguments]
  simp [Scope.bare]

/-- Built-in functions see of their arguments what is printed of them. -/
theorem execute_bare (native : Native) (scope : Scope) :
    native.execute scope.bare = native.execute scope := by
  cases native with
  | say => simp [execute, speak, arguments_bare, Function.comp_def]
  | ask kind => simp [execute, Function.comp_def]

end Native

/-! ### Contexts, errors and worlds -/

def Frame.bare (frame : Frame) : Frame :=
  { frame with entry := frame.entry.map fun _ => nowhere }

def Context.bare {globals : ScopeId} (context : Context globals) : Context globals :=
  { context with frames := context.frames.map Frame.bare }

theorem Context.bare_eq_iff {globals : ScopeId} {context context' : Context globals} :
    context.bare = context'.bare ↔
    context.scope = context'.scope ∧
      context.frames.map Frame.bare = context'.frames.map Frame.bare := by
  simp [Context.bare]

def RuntimeError.bare (error : RuntimeError) : RuntimeError :=
  ⟨error.fault, nowhere, error.frames.map Frame.bare⟩

/-- The console has no spans. -/
def World.bare (world : World) : World :=
  { world with scopes := world.scopes.bare }

theorem World.bare_eq_iff {world world' : World} : world.bare = world'.bare ↔
    world.scopes.bare = world'.scopes.bare ∧ world.console = world'.console := by
  simp [World.bare]

def Exit.bare : Exit → Exit
  | .returned value => .returned value.bare
  | .broke _ => .broke nowhere
  | .continued _ => .continued nowhere
  | .failed error => .failed error.bare
  | .awaitingInput => .awaitingInput
  | .outOfBudget => .outOfBudget

/-- How an evaluation ended, without spans. -/
def bareOutcome : EStateM.Result Exit World Value → EStateM.Result Exit World Value
  | .ok value world => .ok value.bare world.bare
  | .error exit world => .error exit.bare world.bare

end Primer
