import Mathlib
import Primer.Machine.Dialogue

/-!
# What holds of every bound value

A property of values is kept by the scopes when it holds of whatever is bound in them: binding values
that have it keeps it, and looking a name up gives a value that has it. The values that built-in
functions answer with are numbers and texts.
-/

namespace Primer

/-- Every function of a program inside the value has the property. -/
inductive Value.Every (holds : Function → Prop) : Value → Prop
  | number (x : Number) : Every holds (.number x)
  | string (x : String) : Every holds (.string x)
  | native (x : Native) : Every holds (.native x)
  | list {elements : List Value} (each : ∀ element ∈ elements, Every holds element) :
      Every holds (.list elements)
  | function {f : Function} (own : holds f) : Every holds (.function f)

namespace Value.Every

variable {holds weaker : Function → Prop}

theorem mono {value : Value} (every : value.Every holds) (imp : ∀ f, holds f → weaker f) :
    value.Every weaker := by
  induction every with
  | number x => exact .number x
  | string x => exact .string x
  | native x => exact .native x
  | list _ ih => exact .list ih
  | function own => exact .function (imp _ own)

theorem list_iff {elements : List Value} :
    (Value.list elements).Every holds ↔ ∀ element ∈ elements, element.Every holds := by
  refine ⟨fun every => ?_, .list⟩
  cases every with
  | list each => exact each

end Value.Every

variable {good : Value → Prop}

namespace Scope

/-- Every value bound in the scope has the property. -/
def Holds (good : Value → Prop) (scope : Scope) : Prop :=
  ∀ binding ∈ scope.bindings, good binding.2

theorem holds_empty (parent : Option ScopeId) : (empty parent).Holds good :=
  fun _ member => absurd member List.not_mem_nil

private theorem forall_mem_bind {name : String} {value : Value} {bindings : List (String × Value)}
    (each : ∀ binding ∈ bindings, good binding.2) (holds : good value) :
    ∀ binding ∈ bind name value bindings, good binding.2 := by
  induction bindings with
  | nil =>
    intro binding member
    rw [List.mem_singleton.mp member]
    exact holds
  | cons first rest ih =>
    obtain ⟨head, tail⟩ := List.forall_mem_cons.mp each
    rw [bind]
    -- The binding of the same name is replaced, any other is kept.
    split
    · exact List.forall_mem_cons.mpr ⟨holds, tail⟩
    · exact List.forall_mem_cons.mpr ⟨head, ih tail⟩

theorem Holds.set {scope : Scope} {value : Value} (holds : scope.Holds good) (name : String)
    (new : good value) : (scope.set name value).Holds good :=
  forall_mem_bind holds new

theorem Holds.setAll {scope : Scope} {bindings : List (String × Value)} (holds : scope.Holds good)
    (each : ∀ binding ∈ bindings, good binding.2) : (scope.setAll bindings).Holds good := by
  induction bindings generalizing scope with
  | nil => exact holds
  | cons first rest ih =>
    obtain ⟨head, tail⟩ := List.forall_mem_cons.mp each
    exact ih (holds.set first.1 head) tail

/-- The arguments of a built-in function are bound to the names of their places. -/
theorem good_of_passed {values : List Value} (each : ∀ value ∈ values, good value) :
    ∀ binding ∈ values.zipIdx.map fun (value, index) => (Native.argumentName index, value),
      good binding.2 := by
  intro binding member
  obtain ⟨⟨value, index⟩, passed, rfl⟩ := List.mem_map.mp member
  exact each value (List.fst_mem_of_mem_zipIdx passed)

theorem holds_callScope (globals : ScopeId) {values : List Value}
    (each : ∀ value ∈ values, good value) : (Native.callScope globals values).Holds good :=
  (holds_empty _).setAll (good_of_passed each)

theorem Holds.own? {scope : Scope} (holds : scope.Holds good) {name : String} {value : Value}
    (found : scope.own? name = some value) : good value := by
  rw [Scope.own?, List.lookup_eq_some_iff] at found
  obtain ⟨before, after, split, _⟩ := found
  exact holds (name, value) (by simp [split])

end Scope

namespace Scopes

/-- Every value bound in any scope has the property. -/
def Hold (good : Value → Prop) (scopes : Scopes) : Prop :=
  ∀ scope ∈ scopes, scope.Holds good

variable {scopes : Scopes}

theorem Hold.push (hold : scopes.Hold good) {scope : Scope} (holds : scope.Holds good) :
    Hold good (scopes.push scope) := by
  intro other member
  rcases Array.mem_push.mp member with old | rfl
  · exact hold other old
  · exact holds

theorem Hold.set (hold : scopes.Hold good) (id : ScopeId) (name : String) {value : Value}
    (new : good value) : (scopes.set id name value).Hold good := by
  intro scope member
  obtain ⟨index, inside, rfl⟩ := Array.mem_iff_getElem.mp member
  have old : index < scopes.size := by simpa [Scopes.set] using inside
  have holds := hold _ (Array.getElem_mem old)
  simp only [Scopes.set, Array.getElem_modify]
  split
  · exact holds.set name new
  · exact holds

/-- The way up from a scope ends at a binding of one of the scopes. -/
theorem Hold.find? (hold : scopes.Hold good) {name : String} {value : Value} {steps : Nat}
    {id : ScopeId} (found : scopes.find? name steps id = some value) : good value := by
  induction steps generalizing id with
  | zero => exact absurd found nofun
  | succ steps ih =>
    rw [Scopes.find?] at found
    split at found
    next => exact absurd found nofun
    next scope here =>
      split at found
      next own bound =>
        cases found
        exact (hold scope (Array.mem_of_getElem? here)).own? bound
      next =>
        split at found
        next parent => exact ih found
        next => exact absurd found nofun

theorem Hold.get? (hold : scopes.Hold good) {id : ScopeId} {name : String} {value : Value}
    (found : scopes.get? id name = some value) : good value :=
  hold.find? found

end Scopes

/-- Every value of the scope of programs is a number or a built-in function. -/
theorem Scope.holds_global (number : ∀ x, good (.number x)) (native : ∀ x, good (.native x)) :
    Scope.global.Holds good := by
  refine (Scope.holds_empty none).setAll fun binding member => ?_
  rcases List.mem_append.mp member with constant | builtIn
  · simp only [List.mem_cons, List.not_mem_nil, or_false] at constant
    rcases constant with rfl | rfl | rfl
    all_goals exact number _
  · obtain ⟨x, _, rfl⟩ := List.mem_map.mp builtIn
    exact native x

namespace Dialogue

variable {α β : Type} {console console' : Console}

/-- A dialogue that comes to an end went through its first part. -/
theorem exists_of_bind_ok {x : Dialogue α} {f : α → Dialogue β} {b : β}
    (ran : (x >>= f) console = .ok b console') :
    ∃ a between, x console = .ok a between ∧ f a between = .ok b console' := by
  cases first : x console with
  | ok a between =>
    refine ⟨a, between, rfl, ?_⟩
    rw [← ran]
    simp only [bind, EStateM.bind, first]
  | error interruption between =>
    simp only [bind, EStateM.bind, first] at ran
    exact absurd ran nofun

end Dialogue

section Answers

variable (number : ∀ x, good (.number x)) (string : ∀ x, good (.string x))
  {value : Value} {console console' : Console}
include number string

theorem InputKind.good_of_value? {kind : InputKind} {line : String}
    (answers : kind.value? line = some value) : good value := by
  cases kind with
  | string =>
    cases answers
    exact string line
  | int | float =>
    simp only [InputKind.value?, Option.map_eq_some_iff] at answers
    obtain ⟨x, _, rfl⟩ := answers
    exact number _

theorem Native.good_of_awaitAnswer {kind : InputKind} {request : String} {budget : Nat}
    (answered : Native.awaitAnswer kind request budget console = .ok value console') :
    good value := by
  induction budget generalizing console with
  | zero =>
    obtain ⟨_, _, _, thrown⟩ := Dialogue.exists_of_bind_ok answered
    exact absurd thrown nofun
  | succ budget ih =>
    obtain ⟨line, between, _, reacted⟩ := Dialogue.exists_of_bind_ok answered
    cases accepted : kind.value? line with
    | some answer =>
      rw [accepted] at reacted
      cases reacted
      exact InputKind.good_of_value? number string accepted
    | none =>
      rw [accepted] at reacted
      obtain ⟨_, _, _, asked⟩ := Dialogue.exists_of_bind_ok reacted
      obtain ⟨_, _, _, again⟩ := Dialogue.exists_of_bind_ok asked
      exact ih again

/-- A built-in function answers with a number or a text. -/
theorem Native.good_of_execute {native : Native} {scope : Scope}
    (answered : native.execute scope console = .ok value console') : good value := by
  cases native with
  | say =>
    obtain ⟨_, _, _, answered⟩ := Dialogue.exists_of_bind_ok answered
    obtain ⟨_, _, _, answered⟩ := Dialogue.exists_of_bind_ok answered
    cases answered
    exact number _
  | ask kind =>
    obtain ⟨_, _, _, answered⟩ := Dialogue.exists_of_bind_ok answered
    obtain ⟨_, _, _, answered⟩ := Dialogue.exists_of_bind_ok answered
    exact Native.good_of_awaitAnswer number string answered

end Answers

end Primer
