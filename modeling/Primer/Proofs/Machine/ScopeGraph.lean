import Primer.Proofs.Machine.Bindings
import Primer.Session.Run

/-!
# The graph of scopes

Evaluation changes the scopes in two ways only: it binds a name in one of them, and it makes a scope for
a call, inside the one that the function was created in. `World.Step` has these and a word with the
console, and `World.Leads` is any number of steps.

A step keeps a world `Sound`: every scope but the first has a parent older than itself, and no value
refers to a scope that is yet to be made. So the way up from a scope is a finite list without
repetition that ends in the first scope, and looking a name up goes along the whole of it.
-/

namespace Primer

/-- Every function inside the value was created in one of the first scopes, so many in number. -/
def Value.Closed (count : Nat) : Value → Prop :=
  Value.Every (fun f => f.closure < count)

theorem Value.Closed.mono {count more : Nat} {value : Value} (closed : value.Closed count)
    (le : count ≤ more) : value.Closed more :=
  Value.Every.mono closed fun _ inside => Nat.lt_of_lt_of_le inside le

namespace World

/-- What evaluation does to a world, one thing at a time. -/
inductive Step : World → World → Prop
  | bind (world : World) {id : ScopeId} (name : String) {value : Value}
      (inside : id < world.scopes.size) (closed : value.Closed world.scopes.size) :
      Step world { world with scopes := world.scopes.set id name value }
  | enter (world : World) {closure : ScopeId} {bindings : List (String × Value)}
      (inside : closure < world.scopes.size)
      (closed : ∀ binding ∈ bindings, binding.2.Closed world.scopes.size) :
      Step world { world with
        scopes := world.scopes.push ((Scope.empty (some closure)).setAll bindings) }
  | talk (world : World) (console : Console) : Step world { world with console }

/-- Evaluation can get from one world to the other. -/
def Leads : World → World → Prop :=
  Relation.ReflTransGen Step

/-- The scope binds the name itself. -/
def Binds (world : World) (id : ScopeId) (name : String) : Prop :=
  ∃ scope, world.scopes[id]? = some scope ∧ (scope.own? name).isSome = true

end World

/-! ### What a step does to each scope -/

namespace Scopes

variable {scopes : Scopes} {id : ScopeId} {scope : Scope}

theorem cases_of_set {other : ScopeId} {name : String} {value : Value}
    (here : (scopes.set other name value)[id]? = some scope) :
    ∃ old, scopes[id]? = some old ∧ scope.parent = old.parent ∧
      (scope = old ∨ scope = old.set name value) := by
  simp only [set, Array.getElem?_modify] at here
  split at here
  · obtain ⟨old, there, rfl⟩ := Option.map_eq_some_iff.mp here
    exact ⟨old, there, rfl, .inr rfl⟩
  · exact ⟨scope, here, rfl, .inl rfl⟩

theorem cases_of_push {new : Scope} (here : (scopes.push new)[id]? = some scope) :
    scopes[id]? = some scope ∨ id = scopes.size ∧ scope = new := by
  rw [Array.getElem?_push] at here
  split at here
  next last =>
    cases here
    exact .inr ⟨last, rfl⟩
  next => exact .inl here

end Scopes

/-! ### Scopes grow -/

namespace Scope

theorem own?_set (scope : Scope) (name other : String) (value : Value) :
    (scope.set name value).own? other = if other = name then some value else scope.own? other := by
  have lookup_cons (key : String) (found : Value) (rest : List (String × Value)) :
      ((key, found) :: rest).lookup other = if other = key then some found else rest.lookup other := by
    by_cases same : other = key
    · simp [same]
    · simp [List.lookup_cons, beq_false_of_ne same, same]
  simp only [set, own?]
  induction scope.bindings with
  | nil => exact lookup_cons name value []
  | cons first rest ih =>
    obtain ⟨bound, old⟩ := first
    by_cases here : bound = name
    · rw [bind, if_pos here, lookup_cons, lookup_cons, here]
      split <;> rfl
    · rw [bind, if_neg here, lookup_cons, lookup_cons, ih]
      by_cases first : other = bound
      · rw [if_pos first, if_pos first, if_neg (first ▸ here)]
      · rw [if_neg first, if_neg first]

theorem parent_setAll (scope : Scope) (bindings : List (String × Value)) :
    (scope.setAll bindings).parent = scope.parent := by
  induction bindings generalizing scope with
  | nil => rfl
  | cons first rest ih => exact ih (scope.set first.1 first.2)

/-- The second scope has the parent of the first and binds what it binds. -/
structure Grows (scope later : Scope) : Prop where
  parent : later.parent = scope.parent
  bound : ∀ name, (scope.own? name).isSome = true → (later.own? name).isSome = true

theorem Grows.refl (scope : Scope) : scope.Grows scope :=
  ⟨rfl, fun _ bound => bound⟩

theorem Grows.trans {scope between later : Scope} (first : scope.Grows between)
    (second : between.Grows later) : scope.Grows later :=
  ⟨second.parent.trans first.parent, fun name bound => second.bound name (first.bound name bound)⟩

theorem grows_set (scope : Scope) (name : String) (value : Value) :
    scope.Grows (scope.set name value) := by
  refine ⟨rfl, fun other bound => ?_⟩
  rw [own?_set]
  split
  · rfl
  · exact bound

end Scope

namespace World

/-- Every scope of the first world has grown into one of the second. -/
def Grows (world later : World) : Prop :=
  ∀ (id : ScopeId) (scope : Scope), world.scopes[id]? = some scope →
    ∃ scope', later.scopes[id]? = some scope' ∧ scope.Grows scope'

variable {world between later : World}

theorem Grows.trans (first : world.Grows between) (second : between.Grows later) :
    world.Grows later := by
  intro id scope here
  obtain ⟨scope', here', grows⟩ := first id scope here
  obtain ⟨scope'', here'', grows'⟩ := second id scope' here'
  exact ⟨scope'', here'', grows.trans grows'⟩

theorem Step.grows (step : Step world later) : world.Grows later := by
  intro id scope here
  cases step with
  | @bind other name value inside closed =>
    simp only [Scopes.set, Array.getElem?_modify, here]
    by_cases same : other = id
    · exact ⟨scope.set name value, by simp [same], scope.grows_set name value⟩
    · exact ⟨scope, by simp [same], .refl scope⟩
  | enter inside closed =>
    obtain ⟨old, -⟩ := Array.getElem?_eq_some_iff.mp here
    refine ⟨scope, ?_, .refl scope⟩
    rw [Array.getElem?_push_lt old, ← here, Array.getElem?_eq_getElem old]
  | talk => exact ⟨scope, here, .refl scope⟩

theorem Leads.grows (leads : world.Leads later) : world.Grows later := by
  induction leads with
  | refl => exact fun id scope here => ⟨scope, here, .refl scope⟩
  | tail _ step ih => exact ih.trans step.grows

theorem Grows.binds (grows : world.Grows later) {id : ScopeId} {name : String}
    (binds : world.Binds id name) : later.Binds id name := by
  obtain ⟨scope, here, bound⟩ := binds
  obtain ⟨scope', here', grown⟩ := grows id scope here
  exact ⟨scope', here', grown.bound name bound⟩

end World

/-! ### Parents are older -/

namespace World

/-- Only the first scope has no parent, every other one has an older parent, and all functions were
created in scopes that are there. -/
structure Sound (world : World) : Prop where
  inhabited : 0 < world.scopes.size
  top : ∀ scope, world.scopes[0]? = some scope → scope.parent = none
  older : ∀ id scope, 0 < id → world.scopes[id]? = some scope →
    ∃ parent < id, scope.parent = some parent
  closed : world.scopes.Hold (Value.Closed world.scopes.size)

variable {world later : World}

theorem sound_ofConsole (console : Console) : (ofConsole console).Sound where
  inhabited := Nat.zero_lt_one
  top scope here := by
    obtain rfl : Scope.global = scope := Option.some.inj here
    exact Scope.parent_setAll _ _
  older id scope positive here := by
    obtain ⟨inside, -⟩ := Array.getElem?_eq_some_iff.mp here
    have : id < 1 := inside
    omega
  closed scope member := by
    rw [List.mem_singleton.mp (Array.mem_toList_iff.mpr member)]
    exact Scope.holds_global .number .native

/-- Binding a name changes no parent, and the scope of a call comes behind all others. -/
theorem Step.sound (step : Step world later) (sound : world.Sound) : later.Sound := by
  have some := sound.inhabited
  cases step with
  | @bind other name value inside closed =>
    have size : (world.scopes.set other name value).size = world.scopes.size := by simp [Scopes.set]
    constructor
    case inhabited => rwa [size]
    case top =>
      intro scope here
      obtain ⟨old, there, parent, -⟩ := Scopes.cases_of_set here
      rw [parent, sound.top old there]
    case older =>
      intro id scope positive here
      obtain ⟨old, there, parent, -⟩ := Scopes.cases_of_set here
      rw [parent]
      exact sound.older id old positive there
    case closed =>
      rw [size]
      exact sound.closed.set other name closed
  | @enter closure bindings inside closed =>
    constructor
    case inhabited => simp
    case top =>
      intro scope here
      rcases Scopes.cases_of_push here with there | ⟨last, -⟩
      · exact sound.top scope there
      · exact absurd last (Nat.ne_of_lt some)
    case older =>
      intro id scope positive here
      rcases Scopes.cases_of_push here with there | ⟨rfl, rfl⟩
      · exact sound.older id scope positive there
      · exact ⟨closure, inside, Scope.parent_setAll _ _⟩
    case closed =>
      rw [Array.size_push]
      refine Scopes.Hold.push (fun scope member binding bound => ?_)
        ((Scope.holds_empty _).setAll fun binding member => (closed binding member).mono (by omega))
      exact (sound.closed scope member binding bound).mono (by omega)
  | talk => exact ⟨sound.inhabited, sound.top, sound.older, sound.closed⟩

theorem Leads.sound (leads : world.Leads later) (sound : world.Sound) : later.Sound := by
  induction leads with
  | refl => exact sound
  | tail _ step ih => exact step.sound ih

end World

/-! ### The way up -/

namespace Scopes

/-- The scopes from one up to the first of all, along the parents. -/
inductive Ancestry (scopes : Scopes) : ScopeId → List ScopeId → Prop
  | top {scope : Scope} (here : scopes[0]? = some scope) (none : scope.parent = none) :
      Ancestry scopes 0 [0]
  | up {id parent : ScopeId} {scope : Scope} {chain : List ScopeId} (here : scopes[id]? = some scope)
      (above : scope.parent = some parent) (rest : Ancestry scopes parent chain) :
      Ancestry scopes id (id :: chain)

variable {scopes : Scopes} {id : ScopeId} {chain : List ScopeId}

theorem Ancestry.mem_zero (ancestry : Ancestry scopes id chain) : 0 ∈ chain := by
  induction ancestry with
  | top => exact List.mem_singleton_self 0
  | up _ _ _ ih => exact List.mem_cons_of_mem _ ih

/-- The value that a scope itself binds a name to, if the scope is there. -/
def ownAt? (scopes : Scopes) (name : String) (id : ScopeId) : Option Value :=
  scopes[id]?.bind (·.own? name)

/-- With enough steps a name is looked up along the whole way. -/
theorem Ancestry.find?_eq (ancestry : Ancestry scopes id chain) (name : String) {steps : Nat}
    (enough : chain.length ≤ steps) :
    scopes.find? name steps id = chain.findSome? (scopes.ownAt? name) := by
  induction ancestry generalizing steps with
  | @top scope here none =>
    obtain ⟨steps, rfl⟩ := Nat.exists_eq_add_of_le' enough
    simp only [List.findSome?, ownAt?, here, Option.bind_some, Scopes.find?, List.length_singleton]
    cases scope.own? name with
    | none => simp [none]
    | some value => rfl
  | @up id parent scope chain here above rest ih =>
    obtain ⟨steps, rfl⟩ := Nat.exists_eq_add_of_le' (Nat.one_le_of_lt enough)
    have others := ih (Nat.le_of_succ_le_succ enough)
    simp only [List.findSome?, ownAt?, here, Option.bind_some, Scopes.find?]
    cases scope.own? name with
    | none => simpa [above] using others
    | some value => rfl

end Scopes

namespace World.Sound

variable {world : World}

/-- By induction on the index, which falls along the parents. -/
theorem exists_ancestry (sound : world.Sound) {id : ScopeId} (inside : id < world.scopes.size) :
    ∃ chain, world.scopes.Ancestry id chain ∧ chain.Nodup ∧ (∀ other ∈ chain, other ≤ id) ∧
      chain.length ≤ id + 1 := by
  induction id using Nat.strong_induction_on with
  | _ id ih =>
    have here := Array.getElem?_eq_getElem inside
    by_cases top : id = 0
    · subst top
      exact ⟨[0], .top here (sound.top _ here), by simp, by simp, by simp⟩
    · obtain ⟨parent, older, above⟩ := sound.older id _ (Nat.pos_of_ne_zero top) here
      obtain ⟨chain, ancestry, distinct, below, short⟩ := ih parent older (older.trans inside)
      refine ⟨id :: chain, .up here above ancestry, List.nodup_cons.mpr ⟨fun member => ?_, distinct⟩,
        List.forall_mem_cons.mpr ⟨Nat.le_refl id, fun other member => ?_⟩, ?_⟩
      · exact absurd (below id member) (Nat.not_le.mpr older)
      · exact (below other member).trans older.le
      · exact Nat.succ_le_succ (short.trans older)

/-- A name that the first scope binds has a value in every scope. -/
theorem get?_ne_none (sound : world.Sound) {id : ScopeId} (inside : id < world.scopes.size)
    {name : String} (binds : world.Binds 0 name) : world.scopes.get? id name ≠ none := by
  obtain ⟨chain, ancestry, -, -, short⟩ := sound.exists_ancestry inside
  obtain ⟨scope, here, bound⟩ := binds
  rw [Scopes.get?, ancestry.find?_eq name short, ← Option.isSome_iff_ne_none, List.findSome?_isSome_iff]
  exact ⟨0, ancestry.mem_zero, by simpa [Scopes.ownAt?, here] using bound⟩

end World.Sound

end Primer
