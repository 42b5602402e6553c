import Primer.Proofs.Evaluation.BareForms
import Primer.Proofs.Evaluation.Saying
import Primer.Proofs.Parsing.SpanBlind

/-!
# Heaps that are alike within reach

Two runs of programs that differ in their spans only may have scopes that differ in number and order.
It is enough that those within reach stand for each other: a pairing of the scopes says which. Paired
scopes bind the same names, to values that agree but for spans, and their parents and the scopes that
functions were created in are paired again. Nothing is said about scopes that are not paired.

## Main result

`endsAlike_evalProgram`: from such worlds, programs of one bare form come to the same end, with the same
console, in worlds that are alike by a larger pairing.

## Proof strategy

The pairing is the stage of a correspondence (`Correspondence.alike`). It grows where a call makes a
scope, in both heaps and behind all others, and it stays one-to-one, so that a name is bound in paired
scopes or in neither. Names are looked up along paired parents. How far the way up may go is bounded by
the index of a scope, which is not the same in both heaps; parents are older than their children on
either side, so it is never cut short.
-/

namespace Primer

/-- Which scopes of one heap stand for which of another. -/
abbrev Pairing := ScopeId → ScopeId → Prop

/-- One pair more. -/
def Pairing.extend (pairs : Pairing) (a b : ScopeId) : Pairing := fun x y =>
  pairs x y ∨ x = a ∧ y = b

theorem Pairing.le_extend (pairs : Pairing) (a b : ScopeId) : pairs ≤ pairs.extend a b :=
  fun _ _ => .inl

/-! ### Values and scopes -/

/-- The values agree but for spans, and their functions were created in paired scopes. -/
inductive Value.Alike (pairs : Pairing) : Value → Value → Prop
  | number (x : Number) : Alike pairs (.number x) (.number x)
  | string (x : String) : Alike pairs (.string x) (.string x)
  | native (x : Native) : Alike pairs (.native x) (.native x)
  | list {elements elements' : List Value} (length : elements.length = elements'.length)
      (each : ∀ pair ∈ elements.zip elements', Alike pairs pair.1 pair.2) :
      Alike pairs (.list elements) (.list elements')
  | function {f f' : Function} (name : f.name = f'.name) (params : f.params = f'.params)
      (body : f.body.bare = f'.body.bare) (closure : pairs f.closure f'.closure) :
      Alike pairs (.function f) (.function f')

variable {pairs more : Pairing}

theorem Value.joinedTexts_eq {values values' : List Value}
    (texts : List.Forall₂ (fun value value' => value.text = value'.text) values values') :
    joinedTexts values = joinedTexts values' := by
  induction texts with
  | nil => rfl
  | cons first others ih =>
    cases others with
    | nil => exact first
    | cons => rw [joinedTexts, joinedTexts, first, ih]

namespace Value.Alike

theorem mono {value value' : Value} (alike : value.Alike pairs value') (later : pairs ≤ more) :
    value.Alike more value' := by
  induction alike with
  | number x => exact .number x
  | string x => exact .string x
  | native x => exact .native x
  | list length _ ih => exact .list length ih
  | function name params body closure => exact .function name params body (later _ _ closure)

theorem list_iff {values values' : List Value} :
    (Value.list values).Alike pairs (.list values') ↔
      List.Forall₂ (Value.Alike pairs) values values' := by
  rw [List.forall₂_iff_zip]
  constructor
  · intro alike
    cases alike with
    | list length each => exact ⟨length, fun member => each _ member⟩
  · rintro ⟨length, each⟩
    exact .list length fun _ member => each member

theorem same {value value' : Value} (alike : value.Alike pairs value') :
    SameValue (Value.Alike pairs) value value' := by
  cases alike with
  | number x => exact .number x
  | string x => exact .string x
  | native x => exact .native x
  | list length each => exact .list (list_iff.mp (.list length each))
  | function name params => exact .function name params

/-- Values that are alike are shown alike. -/
theorem text_eq {value value' : Value} (alike : value.Alike pairs value') :
    value.text = value'.text := by
  induction alike with
  | number | string | native => rfl
  | function name =>
    exact congrArg (fun shown : Option String => "<function " ++ shown.getD "<anonymous>" ++ ">") name
  | list length _ ih => exact joinedTexts_eq (List.forall₂_iff_zip.mpr ⟨length, fun member => ih _ member⟩)

end Value.Alike

/-- The bindings have the same name and values that are alike. -/
def BindingsAlike (pairs : Pairing) (binding binding' : String × Value) : Prop :=
  binding.1 = binding'.1 ∧ binding.2.Alike pairs binding'.2

section

variable {values values' : List Value} (each : List.Forall₂ (Value.Alike pairs) values values')
include each

theorem bindingsAlike_zip (names : List String) :
    List.Forall₂ (BindingsAlike pairs) (names.zip values) (names.zip values') := by
  induction each generalizing names with
  | nil => simp
  | cons first _ ih =>
    cases names with
    | nil => exact .nil
    | cons name names => exact .cons ⟨rfl, first⟩ (ih names)

theorem bindingsAlike_passed (index : Nat) : List.Forall₂ (BindingsAlike pairs)
    ((values.zipIdx index).map fun (value, index) => (Native.argumentName index, value))
    ((values'.zipIdx index).map fun (value, index) => (Native.argumentName index, value)) := by
  induction each generalizing index with
  | nil => exact .nil
  | cons first _ ih => exact .cons ⟨rfl, first⟩ (ih (index + 1))

end

/-- The scopes bind the same names to values that are alike, and their parents are paired. -/
structure Scope.Alike (pairs : Pairing) (scope scope' : Scope) : Prop where
  bindings : List.Forall₂ (BindingsAlike pairs) scope.bindings scope'.bindings
  parent : Option.Rel pairs scope.parent scope'.parent

namespace Scope

variable {scope scope' : Scope}

theorem Alike.mono (alike : scope.Alike pairs scope') (later : pairs ≤ more) :
    scope.Alike more scope' := by
  obtain ⟨bindings, parent⟩ := alike
  refine ⟨bindings.imp fun _ _ same => ⟨same.1, same.2.mono later⟩, ?_⟩
  generalize scope.parent = above, scope'.parent = above' at parent
  cases parent with
  | none => exact .none
  | some paired => exact .some (later _ _ paired)

theorem alike_empty {parent parent' : ScopeId} (paired : pairs parent parent') :
    (empty (some parent)).Alike pairs (empty (some parent')) :=
  ⟨.nil, .some paired⟩

theorem Alike.own? (alike : scope.Alike pairs scope') (name : String) :
    Option.Rel (Value.Alike pairs) (scope.own? name) (scope'.own? name) := by
  have bindings := alike.bindings
  simp only [Scope.own?]
  generalize scope.bindings = first, scope'.bindings = second at bindings
  induction bindings with
  | nil => exact .none
  | @cons first first' _ _ same _ ih =>
    obtain ⟨bound, value⟩ := first
    obtain ⟨bound', value'⟩ := first'
    obtain ⟨rfl, values⟩ := same
    simp only [List.lookup_cons]
    split
    · exact .some values
    · exact ih

theorem Alike.set (alike : scope.Alike pairs scope') (name : String) {value value' : Value}
    (values : value.Alike pairs value') :
    (scope.set name value).Alike pairs (scope'.set name value') := by
  refine ⟨?_, alike.parent⟩
  have bindings := alike.bindings
  simp only [Scope.set]
  generalize scope.bindings = first, scope'.bindings = second at bindings
  induction bindings with
  | nil => exact .cons ⟨rfl, values⟩ .nil
  | @cons first first' _ _ same others ih =>
    obtain ⟨bound, old⟩ := first
    obtain ⟨bound', old'⟩ := first'
    obtain ⟨rfl, olds⟩ := same
    simp only [bind]
    split
    · exact .cons ⟨rfl, values⟩ others
    · exact .cons ⟨rfl, olds⟩ ih

theorem Alike.setAll (alike : scope.Alike pairs scope') {bindings bindings' : List (String × Value)}
    (each : List.Forall₂ (BindingsAlike pairs) bindings bindings') :
    (scope.setAll bindings).Alike pairs (scope'.setAll bindings') := by
  induction each generalizing scope scope' with
  | nil => exact alike
  | @cons first first' _ _ same _ ih =>
    obtain ⟨name, value⟩ := first
    obtain ⟨name', value'⟩ := first'
    obtain ⟨rfl, values⟩ := same
    exact ih (alike.set name values)

end Scope

/-! ### Worlds -/

/-- Paired scopes are there and alike, with parents older than themselves. The pairing is one-to-one, and
the consoles are the same. -/
structure World.Alike (pairs : Pairing) (world world' : World) : Prop where
  console : world.console = world'.console
  paired : ∀ a b, pairs a b → ∃ scope scope',
    world.scopes[a]? = some scope ∧ world'.scopes[b]? = some scope' ∧ scope.Alike pairs scope' ∧
      (∀ parent ∈ scope.parent, parent < a) ∧ ∀ parent ∈ scope'.parent, parent < b
  unique : ∀ a b a' b', pairs a b → pairs a' b' → (a = a' ↔ b = b')

namespace World.Alike

variable {world world' : World} (alike : world.Alike pairs world')
include alike

theorem lt_size {a b : ScopeId} (paired : pairs a b) :
    a < world.scopes.size ∧ b < world'.scopes.size := by
  obtain ⟨scope, scope', here, here', -⟩ := alike.paired a b paired
  exact ⟨(Array.getElem?_eq_some_iff.mp here).1, (Array.getElem?_eq_some_iff.mp here').1⟩

/-- By induction on the steps. Both ways go up from paired scopes to paired parents. -/
theorem find? (name : String) {steps steps' : Nat} {a b : ScopeId} (paired : pairs a b)
    (enough : a < steps) (enough' : b < steps') :
    Option.Rel (Value.Alike pairs) (world.scopes.find? name steps a)
      (world'.scopes.find? name steps' b) := by
  induction steps generalizing a b steps' with
  | zero => exact absurd enough (Nat.not_lt_zero a)
  | succ steps ih =>
    obtain ⟨steps', rfl⟩ := Nat.exists_eq_add_of_le' (Nat.one_le_of_lt enough')
    obtain ⟨scope, scope', here, here', same, older, older'⟩ := alike.paired a b paired
    have own := same.own? name
    have parents := same.parent
    simp only [Scopes.find?, here, here']
    generalize scope.own? name = found, scope'.own? name = found' at own
    cases own with
    | some values => exact .some values
    | none =>
      generalize scope.parent = above, scope'.parent = above' at parents older older'
      cases parents with
      | none => exact .none
      | some paired' =>
        exact ih paired' (Nat.lt_of_lt_of_le (older _ rfl) (Nat.le_of_lt_succ enough))
          (Nat.lt_of_lt_of_le (older' _ rfl) (Nat.le_of_lt_succ enough'))

theorem get? (name : String) {a b : ScopeId} (paired : pairs a b) :
    Option.Rel (Value.Alike pairs) (world.scopes.get? a name) (world'.scopes.get? b name) :=
  alike.find? name paired (Nat.lt_succ_self a) (Nat.lt_succ_self b)

theorem set {a b : ScopeId} (paired : pairs a b) (name : String) {value value' : Value}
    (values : value.Alike pairs value') :
    World.Alike pairs { world with scopes := world.scopes.set a name value }
      { world' with scopes := world'.scopes.set b name value' } := by
  refine ⟨alike.console, fun x y other => ?_, alike.unique⟩
  obtain ⟨scope, scope', here, here', same, older, older'⟩ := alike.paired x y other
  simp only [Scopes.set, Array.getElem?_modify, here, here', Option.map_some]
  -- The name is bound in both of the scopes or in neither.
  have both := alike.unique a b x y paired other
  by_cases chosen : a = x
  · rw [if_pos chosen, if_pos (both.mp chosen)]
    exact ⟨_, _, rfl, rfl, same.set name values, older, older'⟩
  · rw [if_neg chosen, if_neg (mt both.mpr chosen)]
    exact ⟨_, _, rfl, rfl, same, older, older'⟩

/-- A scope is made on both sides. -/
theorem push {scope scope' : Scope} (same : scope.Alike pairs scope') :
    World.Alike (pairs.extend world.scopes.size world'.scopes.size)
      { world with scopes := world.scopes.push scope }
      { world' with scopes := world'.scopes.push scope' } := by
  have later := pairs.le_extend world.scopes.size world'.scopes.size
  refine ⟨alike.console, ?_, ?_⟩
  · rintro x y (old | ⟨rfl, rfl⟩)
    · obtain ⟨first, first', here, here', same', older, older'⟩ := alike.paired x y old
      obtain ⟨inside, inside'⟩ := alike.lt_size old
      refine ⟨first, first', ?_, ?_, same'.mono later, older, older'⟩
      · rw [Array.getElem?_push_lt inside, ← here, Array.getElem?_eq_getElem inside]
      · rw [Array.getElem?_push_lt inside', ← here', Array.getElem?_eq_getElem inside']
    · refine ⟨scope, scope', Array.getElem?_push_size, Array.getElem?_push_size, same.mono later, ?_⟩
      have parents := same.parent
      generalize scope.parent = above, scope'.parent = above' at parents
      cases parents with
      | none => exact ⟨nofun, nofun⟩
      | some paired =>
        obtain ⟨inside, inside'⟩ := alike.lt_size paired
        constructor
        · rintro _ ⟨⟩
          exact inside
        · rintro _ ⟨⟩
          exact inside'
  · -- New scopes are behind all that were paired before.
    rintro a b a' b' (old | ⟨rfl, rfl⟩) (old' | ⟨rfl, rfl⟩)
    · exact alike.unique a b a' b' old old'
    · obtain ⟨inside, inside'⟩ := alike.lt_size old
      exact ⟨fun same => absurd same inside.ne, fun same => absurd same inside'.ne⟩
    · obtain ⟨inside, inside'⟩ := alike.lt_size old'
      exact ⟨fun same => absurd same inside.ne', fun same => absurd same inside'.ne'⟩
    · exact ⟨fun _ => rfl, fun _ => rfl⟩

theorem talk (console : Console) :
    World.Alike pairs { world with console } { world' with console } :=
  ⟨rfl, alike.paired, alike.unique⟩

end World.Alike

/-! ### Runs -/

namespace Correspondence

/-- Evaluations from worlds that were alike at the start. -/
def alike (globals globals' : ScopeId) (start : Pairing) :
    Correspondence Pairing globals globals' where
  worlds pairs world world' := start ≤ pairs ∧ world.Alike pairs world'
  values pairs := Value.Alike pairs
  nodes pairs context context' node node' := pairs context.scope context'.scope ∧
    context.frames.map Frame.bare = context'.frames.map Frame.bare ∧ node.bare = node'.bare
  signals context context' _ _ :=
    context.frames.map Frame.bare = context'.frames.map Frame.bare
  failures error error' world world' := error.bare = error'.bare ∧
    ∃ pairs, start ≤ pairs ∧ world.Alike pairs world'
  stops world world' := ∃ pairs, start ≤ pairs ∧ world.Alike pairs world'

variable {globals globals' : ScopeId} {start : Pairing}

theorem alike_lawful (programs : start globals globals') :
    (alike globals globals' start).Lawful where
  values_later later values := values.mono later
  nodes_later later nodes := ⟨later _ _ nodes.1, nodes.2⟩
  sameNode := by
    rintro pairs c c' n n' ⟨paired, frames, nodes⟩
    exact .of_bare nodes fun a b same => ⟨paired, frames, same⟩
  sameValue values := values.same
  number _ x := .number x
  string _ x := .string x
  list values := Value.Alike.list_iff.mpr values
  lookup := by
    rintro pairs c c' ident ident' w w' ⟨paired, -, nodes⟩ ⟨-, worlds⟩
    have name : ident.name = ident'.name := by
      simp only [Node.bare, Node.variable.injEq, Ident.bare, Ident.mk.injEq] at nodes
      exact nodes.1
    rw [← name]
    exact worlds.get? ident.name paired
  assign := by
    rintro pairs c c' n n' name v v' w w' ⟨paired, -⟩ - values ⟨later, worlds⟩
    exact ⟨later, worlds.set paired name values⟩
  closure := by
    rintro pairs c c' name name' params params' body body' span span' ⟨paired, -, nodes⟩
    simp only [Node.bare, Node.function.injEq] at nodes
    obtain ⟨names, idents, bodies, -⟩ := nodes
    refine .function ?_ ?_ bodies paired
    · simpa [Function.comp_def, Ident.bare] using congrArg (Option.map Ident.name) names
    · simpa [Function.comp_def, Ident.bare] using congrArg (List.map Ident.name) idents
  enter := by
    rintro pairs c c' callee callee' arguments arguments' span span' f f' vs vs' w w' ⟨-, frames, -⟩
      functions values - ⟨later, worlds⟩
    cases functions with
    | function name params bodies closure =>
      have bound : List.Forall₂ (BindingsAlike pairs) (f.params.zip vs) (f'.params.zip vs') := by
        rw [← params]
        exact bindingsAlike_zip values f.params
      have made := worlds.push ((Scope.alike_empty closure).setAll bound)
      have grown := pairs.le_extend w.scopes.size w'.scopes.size
      refine ⟨_, grown, ⟨later.trans grown, made⟩, .of_bare bodies fun a b same => ?_⟩
      refine ⟨.inr ⟨rfl, rfl⟩, ?_, same⟩
      simp only [List.map_cons, frames, Function.shownName, name, Frame.bare, Option.map_some]
  callScope := by
    rintro pairs c c' callee callee' arguments arguments' span span' vs vs' w w' - values
      ⟨later, worlds⟩
    have grown := pairs.le_extend w.scopes.size w'.scopes.size
    have parents := Scope.alike_empty (later _ _ programs)
    exact ⟨_, grown, later.trans grown, worlds.push (parents.setAll (bindingsAlike_passed values 0))⟩
  converse := by
    rintro pairs c c' callee callee' arguments arguments' span span' vs vs' w w' _ _ native
      ⟨-, frames, -⟩ values ⟨later, worlds⟩
    -- Of the arguments only the texts matter, so the two calls hold one dialogue.
    have texts : vs.map Value.text = vs'.map Value.text :=
      forall₂_iff_map_eq.mp (values.imp fun _ _ same => same.text_eq)
    unfold Eval.converse
    rw [native.execute_of_texts globals globals' texts, worlds.console]
    cases ran : (native.execute (Native.callScope globals' vs')).run w'.console with
    | ok v after =>
      let alone (answer : Value) : Prop := answer.Alike pairs answer
      have answer : alone v := Native.good_of_execute .number .string ran
      exact .ok le_rfl ⟨later, worlds.talk after⟩ answer
    | error interruption after =>
      cases interruption with
      | failed fault =>
        refine .error (.failed ⟨?_, pairs, later, worlds.talk after⟩)
        simp [RuntimeError.bare, Frame.bare, frames]
      | awaitingInput => exact .error (.awaiting ⟨pairs, later, worlds.talk after⟩)
  fail := by
    rintro pairs c c' n n' site fault span span' w w' ⟨-, frames, -⟩ - - - ⟨later, worlds⟩
    exact ⟨congrArg (RuntimeError.mk fault nowhere) frames, pairs, later, worlds⟩
  continuing nodes := nodes.2.1
  breaking nodes := nodes.2.1
  stray := by
    rintro pairs c c' word span span' w w' frames ⟨later, worlds⟩
    exact ⟨congrArg (RuntimeError.mk (.outsideLoop word) nowhere) frames, pairs, later, worlds⟩
  stop worlds := ⟨_, worlds⟩

end Correspondence

/-- The ways out agree but for spans, with values that are alike. -/
inductive Exit.Alike (pairs : Pairing) : Exit → Exit → Prop
  | returned {value value' : Value} (values : value.Alike pairs value') :
      Alike pairs (.returned value) (.returned value')
  | broke (span span' : Span) : Alike pairs (.broke span) (.broke span')
  | continued (span span' : Span) : Alike pairs (.continued span) (.continued span')
  | failed {error error' : RuntimeError} (errors : error.bare = error'.bare) :
      Alike pairs (.failed error) (.failed error')
  | awaitingInput : Alike pairs .awaitingInput .awaitingInput
  | outOfBudget : Alike pairs .outOfBudget .outOfBudget

/-- Two runs end in the same way but for spans, in worlds that are alike by the pairing that there was at
the start and pairs of scopes made since. -/
inductive EndsAlike (start : Pairing) :
    EStateM.Result Exit World Value → EStateM.Result Exit World Value → Prop
  | value {pairs : Pairing} {value value' : Value} {world world' : World} (later : start ≤ pairs)
      (worlds : world.Alike pairs world') (values : value.Alike pairs value') :
      EndsAlike start (.ok value world) (.ok value' world')
  | exit {pairs : Pairing} {exit exit' : Exit} {world world' : World} (later : start ≤ pairs)
      (worlds : world.Alike pairs world') (exits : exit.Alike pairs exit') :
      EndsAlike start (.error exit world) (.error exit' world')

theorem endsAlike_of_outcomes {globals globals' : ScopeId} {start pairs : Pairing}
    {c : Context globals} {c' : Context globals'}
    {result result' : EStateM.Result Exit World Value}
    (outcomes : (Correspondence.alike globals globals' start).Outcomes pairs c c'
      (Correspondence.alike globals globals' start).values result result') :
    EndsAlike start result result' := by
  cases outcomes with
  | ok _ worlds values => exact .value worlds.1 worlds.2 values
  | error exits =>
    cases exits with
    | returned _ worlds values => exact .exit worlds.1 worlds.2 (.returned values)
    | broke _ worlds => exact .exit worlds.1 worlds.2 (.broke _ _)
    | continued _ worlds => exact .exit worlds.1 worlds.2 (.continued _ _)
    | failed failures =>
      obtain ⟨errors, pairs, later, worlds⟩ := failures
      exact .exit later worlds (.failed errors)
    | awaiting stops =>
      obtain ⟨pairs, later, worlds⟩ := stops
      exact .exit later worlds .awaitingInput
    | spent stops =>
      obtain ⟨pairs, later, worlds⟩ := stops
      exact .exit later worlds .outOfBudget

/-- Programs of one bare form, run in paired scopes of worlds that are alike, end alike. -/
theorem endsAlike_evalProgram {program program' : Block} {world world' : World} {start : Pairing}
    {scope scope' : ScopeId} (programs : program.bare = program'.bare)
    (worlds : world.Alike start world') (paired : start scope scope') (budget : Nat) :
    EndsAlike start ((evalProgram budget scope program).run world)
      ((evalProgram budget scope' program').run world') := by
  let runs := Correspondence.alike scope scope' start
  have same : List.Forall₂ (fun a b : Node => a.bare = b.bare) program.statements
      program'.statements := forall₂_iff_map_eq.mpr (congrArg Block.statements programs)
  have statements : List.Forall₂ (runs.nodes start ⟨scope, [.program]⟩ ⟨scope', [.program]⟩)
      program.statements program'.statements := same.imp fun _ _ node => ⟨paired, rfl, node⟩
  have related : runs.Related start ⟨scope, [.program]⟩ ⟨scope', [.program]⟩ runs.values _ _ :=
    (Correspondence.alike_lawful paired).evalProgram budget statements
  exact endsAlike_of_outcomes (related start le_rfl world world' ⟨le_rfl, worlds⟩)

end Primer
