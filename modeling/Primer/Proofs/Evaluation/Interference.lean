import Primer.Proofs.Evaluation.Locations
import Primer.Proofs.Machine.Concealment

/-!
# Names that are not mentioned

A program that does not mention a name runs the same whatever the scope of programs binds the name
to. Nor does it matter that functions stored there call each other, as long as none of those that
the program can get at mentions the name.

## Main result

`unmentioned_name_ignored`: two runs from worlds that differ in one binding of such a name end in
the same way, with the same console, in worlds that differ in that binding only.

## Proof strategy

The two runs correspond (`concealing`): they are in the same context, at the same node, and their
worlds are the same without the binding. Neither run can read it, because the name is not looked up,
and neither can overwrite it, because the name is not bound. That no function comes up which
mentions the name is an invariant of the world without the binding, where it is out of reach.
-/

namespace Primer

namespace World

/-- The world in which one scope has no binding of the name. -/
def without (top : ScopeId) (name : String) (world : World) : World :=
  { world with scopes := world.scopes.without top name }

/-- The worlds are the same but for the name in one scope, which the first binds to the one value
and the second to the other, if at all. -/
structure DifferAt (top : ScopeId) (name : String) (held held' : Option Value)
    (world world' : World) : Prop where
  same : world.without top name = world'.without top name
  held : world.scopes.ownAt? name top = held
  held' : world'.scopes.ownAt? name top = held'

end World

/-- Two evaluations end in the same way, in worlds that are related. -/
inductive SameEnd (worlds : World → World → Prop) :
    EStateM.Result Exit World Value → EStateM.Result Exit World Value → Prop
  | value (v : Value) {w w' : World} (left : worlds w w') : SameEnd worlds (.ok v w) (.ok v w')
  | exit (x : Exit) {w w' : World} (left : worlds w w') : SameEnd worlds (.error x w) (.error x w')

/-- The functions run code that does not mention the name, in one of the scopes. -/
abbrev Silent (name : String) (own : ScopeId → Prop) : Function → Prop :=
  Function.Available (fun node => ¬node.Mentions name) own

/-- Two worlds in the course of the two runs. -/
structure Apart (top : ScopeId) (name : String) (own : ScopeId → Prop) (held held' : Option Value)
    (world world' : World) : Prop where
  differ : world.DifferAt top name held held' world'
  inside : top < world.scopes.size
  stocked : Stocked (fun node => ¬node.Mentions name) own (world.without top name)

namespace Apart

variable {top : ScopeId} {name : String} {own : ScopeId → Prop} {held held' : Option Value}
  {w w' : World} (apart : Apart top name own held held' w w')
include apart

theorem scopes : w.scopes.without top name = w'.scopes.without top name := by
  have same := apart.differ.same
  simp only [World.without, World.mk.injEq] at same
  exact same.1

theorem console : w.console = w'.console := by
  have same := apart.differ.same
  simp only [World.without, World.mk.injEq] at same
  exact same.2

theorem size : w.scopes.size = w'.scopes.size := by
  have same := congrArg Array.size apart.scopes
  rwa [Scopes.size_without, Scopes.size_without] at same

theorem get? {other : String} (different : other ≠ name) (id : ScopeId) :
    w.scopes.get? id other = w'.scopes.get? id other := by
  have same := congrArg (Scopes.get? · id other) apart.scopes
  simpa only [Scopes.get?_without _ different] using same

theorem set (id : ScopeId) {other : String} (different : other ≠ name) {value : Value}
    (new : value.Every (Silent name own)) :
    Apart top name own held held' { w with scopes := w.scopes.set id other value }
      { w' with scopes := w'.scopes.set id other value } := by
  have seen (world : World) :
      World.without top name { world with scopes := world.scopes.set id other value }
        = { world.without top name with
            scopes := (world.scopes.without top name).set id other value } :=
    congrArg (World.mk · world.console) (world.scopes.without_set id value different)
  constructor
  case differ =>
    refine ⟨?_, ?_, ?_⟩
    · rw [seen, seen, apart.scopes, apart.differ.same]
    · rw [Scopes.ownAt?_set _ id value different]
      exact apart.differ.held
    · rw [Scopes.ownAt?_set _ id value different]
      exact apart.differ.held'
  case inside => simpa [Scopes.set] using apart.inside
  case stocked =>
    rw [seen]
    exact apart.stocked.set id other new

theorem push {closure : ScopeId} (owned : own closure) {bindings : List (String × Value)}
    (each : ∀ binding ∈ bindings, binding.2.Every (Silent name own)) :
    let scope := (Scope.empty (some closure)).setAll bindings
    Apart top name own held held' { w with scopes := w.scopes.push scope }
      { w' with scopes := w'.scopes.push scope } := by
  intro scope
  have inside' : top < w'.scopes.size := apart.size ▸ apart.inside
  have seen (world : World) (inside : top < world.scopes.size) :
      World.without top name { world with scopes := world.scopes.push scope }
        = { world.without top name with scopes := (world.scopes.without top name).push scope } :=
    congrArg (World.mk · world.console) (world.scopes.without_push scope inside)
  constructor
  case differ =>
    refine ⟨?_, ?_, ?_⟩
    · rw [seen w apart.inside, seen w' inside', apart.scopes, apart.differ.same]
    · rw [Scopes.ownAt?_push _ scope apart.inside]
      exact apart.differ.held
    · rw [Scopes.ownAt?_push _ scope inside']
      exact apart.differ.held'
  case inside =>
    rw [Array.size_push]
    exact Nat.lt_succ_of_lt apart.inside
  case stocked =>
    rw [seen w apart.inside]
    exact apart.stocked.push owned each

/-- The two runs hear and say the same. -/
theorem talk (console : Console) :
    Apart top name own held held' { w with console } { w' with console } := by
  refine ⟨⟨?_, apart.differ.held, apart.differ.held'⟩, apart.inside, ?_⟩
  · exact congrArg (World.mk · console) apart.scopes
  · exact ⟨apart.stocked.bindings, apart.stocked.parents, apart.stocked.fresh⟩

end Apart

namespace Correspondence

/-- Two runs of one program that differ in what a scope binds the name to. -/
def concealing (globals top : ScopeId) (name : String) (own : ScopeId → Prop)
    (held held' : Option Value) : Correspondence Unit globals globals where
  worlds _ := Apart top name own held held'
  values _ value value' := value = value' ∧ value.Every (Silent name own)
  nodes _ context context' node node' :=
    context = context' ∧ node = node' ∧ own context.scope ∧ ¬node.Mentions name
  signals context context' span span' := context = context' ∧ span = span'
  failures error error' world world' := error = error' ∧ Apart top name own held held' world world'
  stops := Apart top name own held held'

variable {globals top : ScopeId} {name : String} {own : ScopeId → Prop}
  {held held' : Option Value}

theorem concealing_lawful (programs : own globals) :
    (concealing globals top name own held held').Lawful where
  values_later _ values := values
  nodes_later _ nodes := nodes
  sameNode := by
    rintro _ c _ n _ ⟨rfl, rfl, owned, silent⟩
    refine .refl n fun child member => ⟨rfl, rfl, owned, ?_⟩
    exact (Node.not_mentions_iff.mp silent).2 child (Node.mem_parts_of_mem_children member)
  sameValue := by
    rintro _ v _ ⟨rfl, every⟩
    cases v with
    | number x => exact .number x
    | string x => exact .string x
    | list vs =>
      have each := Value.Every.list_iff.mp every
      exact .list (List.forall₂_same.mpr fun v member => ⟨rfl, each v member⟩)
    | function f => exact .function rfl rfl
    | native native => exact .native native
  number _ x := ⟨rfl, .number x⟩
  string _ x := ⟨rfl, .string x⟩
  list values := by
    obtain ⟨rfl, each⟩ := forall₂_diagonal values
    exact ⟨rfl, .list each⟩
  lookup := by
    rintro _ c _ ident _ w w' ⟨rfl, same, owned, silent⟩ apart
    cases same
    have different : ident.name ≠ name := fun same =>
      (Node.not_mentions_iff.mp silent).1 (List.mem_singleton.mpr same.symm)
    rw [← apart.get? different]
    cases found : w.scopes.get? c.scope ident.name with
    | none => exact .none
    | some v =>
      -- What is found is found without the binding too, where every function is silent.
      have kept : (w.scopes.without top name).get? c.scope ident.name = some v :=
        (w.scopes.get?_without different c.scope).trans found
      exact .some ⟨rfl, apart.stocked.find? owned kept⟩
  assign := by
    rintro _ c _ n _ other v _ w w' ⟨rfl, rfl, -, silent⟩ bound ⟨rfl, every⟩ apart
    refine apart.set c.scope ?_ every
    rintro rfl
    exact (Node.not_mentions_iff.mp silent).1 (Node.mem_names_of_bound? bound)
  closure := by
    rintro _ c _ ident _ params _ body _ span _ ⟨rfl, same, owned, silent⟩
    cases same
    exact ⟨rfl, .function ⟨owned, (Node.not_mentions_iff.mp silent).2⟩⟩
  enter := by
    rintro _ c _ callee _ arguments _ span _ f _ vs _ w w' ⟨rfl, same, owned, silent⟩ ⟨same', every⟩
      values _ apart
    cases same
    cases same'
    obtain ⟨rfl, each⟩ := forall₂_diagonal values
    cases every with
    | function available =>
      obtain ⟨closure, body⟩ := available
      have fresh : own w.scopes.size :=
        apart.stocked.fresh _ (Nat.le_of_eq (Scopes.size_without w.scopes))
      refine ⟨(), le_rfl, ?_, .refl _ fun n member => ⟨?_, rfl, fresh, body n member⟩⟩
      · exact apart.push closure fun binding member => each _ (List.of_mem_zip member).2
      · rw [apart.size]
  callScope := by
    rintro _ c _ callee _ arguments _ span _ vs _ w w' - values apart
    obtain ⟨rfl, each⟩ := forall₂_diagonal values
    exact ⟨(), le_rfl, apart.push programs (Scope.good_of_passed each)⟩
  converse := by
    rintro _ c _ callee _ arguments _ span _ vs _ w w' _ _ native ⟨rfl, same, owned, silent⟩ values
      apart
    cases same
    obtain ⟨rfl, each⟩ := forall₂_diagonal values
    -- The consoles are the same, so the two runs hold one dialogue.
    unfold Eval.converse
    rw [← apart.console]
    cases ran : (native.execute (Native.callScope globals vs)).run w.console with
    | ok v console =>
      exact .ok le_rfl (apart.talk console) ⟨rfl, Native.good_of_execute .number .string ran⟩
    | error interruption console =>
      cases interruption with
      | failed fault => exact .error (.failed ⟨rfl, apart.talk console⟩)
      | awaitingInput => exact .error (.awaiting (apart.talk console))
  fail := by
    rintro _ c _ n _ site fault span span' w w' ⟨rfl, rfl, -, -⟩ raises raises' - apart
    cases raises.unique raises'
    exact ⟨rfl, apart⟩
  continuing := by
    rintro _ c _ span _ ⟨rfl, same, -, -⟩
    cases same
    exact ⟨rfl, rfl⟩
  breaking := by
    rintro _ c _ span _ ⟨rfl, same, -, -⟩
    cases same
    exact ⟨rfl, rfl⟩
  stray := by
    rintro _ c _ word span _ w w' ⟨rfl, rfl⟩ apart
    exact ⟨rfl, apart⟩
  stop apart := apart

/-- Corresponding results are the same but for the binding. -/
theorem sameEnd_of_outcomes {c : Context globals}
    {result result' : EStateM.Result Exit World Value}
    (outcomes : (concealing globals top name own held held').Outcomes () c c
      (concealing globals top name own held held').values result result') :
    SameEnd (World.DifferAt top name held held') result result' := by
  cases outcomes with
  | ok _ worlds values =>
    obtain ⟨rfl, -⟩ := values
    exact .value _ worlds.differ
  | error exits =>
    cases exits with
    | returned _ worlds values =>
      obtain ⟨rfl, -⟩ := values
      exact .exit _ worlds.differ
    | broke _ worlds signals | continued _ worlds signals =>
      obtain ⟨-, rfl⟩ := signals
      exact .exit _ worlds.differ
    | failed failures =>
      obtain ⟨rfl, apart⟩ := failures
      exact .exit _ apart.differ
    | awaiting stops | spent stops => exact .exit _ stops.differ

end Correspondence

/-! ### The worlds at the start -/

/-- With the binding out of sight, the scopes within reach and those still to be made have only
silent functions. -/
theorem stocked_of_reach {world : World} {globals top : ScopeId} {name : String}
    (silent : ∀ f, world.scopes.ReachesFunction globals top name f → ¬f.Mentions name) :
    Stocked (fun node => ¬node.Mentions name)
      (fun id => world.scopes.Reached globals top name id ∨ world.scopes.size ≤ id)
      (world.without top name) := by
  have present {id : ScopeId} {scope : Scope}
      (here : (world.without top name).scopes[id]? = some scope) :
      ∃ old, world.scopes[id]? = some old ∧ scope.parent = old.parent ∧
        ∀ binding ∈ scope.bindings, binding ∈ old.bindings ∧ (id = top → binding.1 ≠ name) := by
    rw [World.without, Scopes.getElem?_without] at here
    obtain ⟨old, there, rfl⟩ := Option.map_eq_some_iff.mp here
    refine ⟨old, there, by split <;> rfl, fun binding member => ?_⟩
    split at member
    next =>
      obtain ⟨bound, seen⟩ := List.mem_filter.mp member
      exact ⟨bound, fun _ => bne_iff_ne.mp seen⟩
    next other => exact ⟨member, fun same => absurd same.symm other⟩
  have old {id : ScopeId} {scope : Scope} (here : world.scopes[id]? = some scope) :
      ¬ world.scopes.size ≤ id := by
    obtain ⟨inside, -⟩ := Array.getElem?_eq_some_iff.mp here
    exact Nat.not_le.mpr inside
  constructor
  case bindings =>
    rintro id scope (reached | late) here binding bound
    · obtain ⟨scope', there, -, kept⟩ := present here
      obtain ⟨bound', seen⟩ := kept binding bound
      refine Value.every_of_contains _ fun f inside =>
        ⟨.inl (.closure reached there bound' seen inside), ?_⟩
      intro statement member mentions
      exact silent f ⟨id, scope', reached, there, binding, bound', seen, inside⟩
        (.inr ⟨statement, member, mentions⟩)
    · obtain ⟨_, there, -⟩ := present here
      exact absurd late (old there)
  case parents =>
    rintro id scope (reached | late) here parent above
    · obtain ⟨scope', there, same, -⟩ := present here
      exact .inl (.up reached there (same ▸ above))
    · obtain ⟨_, there, -⟩ := present here
      exact absurd late (old there)
  case fresh =>
    intro id late
    exact .inr (Scopes.size_without world.scopes ▸ late)

/-- Whatever a scope binds a name to that neither the program mentions nor any function within reach
of the scope, the program runs the same from there: within every budget it ends with the same value
or failure and the same console, or in neither case. The binding stays as it was, and no other
differs. -/
theorem unmentioned_name_ignored (program : Block) (world : World) (top : ScopeId) (name : String)
    (value : Value) (inside : top < world.scopes.size)
    (unmentioned : ∀ statement ∈ program.statements, ¬statement.Mentions name)
    (silent : ∀ f, world.scopes.ReachesFunction top top name f → ¬f.Mentions name) (budget : Nat) :
    SameEnd (World.DifferAt top name (world.scopes.ownAt? name top) (some value))
      ((evalProgram budget top program).run world)
      ((evalProgram budget top program).run
        { world with scopes := world.scopes.set top name value }) := by
  have same : world.without top name
      = World.without top name { world with scopes := world.scopes.set top name value } :=
    congrArg (World.mk · world.console) (world.scopes.without_set_self value).symm
  let own (id : ScopeId) : Prop := world.scopes.Reached top top name id ∨ world.scopes.size ≤ id
  let runs := Correspondence.concealing top top name own (world.scopes.ownAt? name top) (some value)
  have apart : runs.worlds () world { world with scopes := world.scopes.set top name value } :=
    ⟨⟨same, rfl, world.scopes.ownAt?_set_self value inside⟩, inside, stocked_of_reach silent⟩
  have nodes : List.Forall₂ (runs.nodes () ⟨top, [.program]⟩ ⟨top, [.program]⟩) program.statements
      program.statements :=
    List.forall₂_same.mpr fun statement member =>
      ⟨rfl, rfl, .inl .start, unmentioned statement member⟩
  have related : runs.Related () ⟨top, [.program]⟩ ⟨top, [.program]⟩ runs.values _ _ :=
    (Correspondence.concealing_lawful (.inl .start)).evalProgram budget nodes
  exact Correspondence.sameEnd_of_outcomes (related () le_rfl _ _ apart)

/-- A function created below the scope of programs, where `x` is bound too, is called. The scope of
programs binds `x` to a function that mentions it, and then to a text. -/
theorem unmentioned_name_ignored_shadowed :
    let self : Value := .function ⟨some "x", [], .inline (.variable ⟨"x", default⟩), 0⟩
    let sum : Node := .binary (.variable ⟨"n", default⟩) .plus (.variable ⟨"k", default⟩) default
    let f : Value := .function ⟨some "f", ["n"], .inline sum, 1⟩
    let world : World := ⟨#[⟨[("x", self), ("f", f)], none⟩,
      ⟨[("k", .number (.int 1)), ("x", .number (.int 5))], some 0⟩], .ofInput [] .none true⟩
    let program : Block :=
      ⟨[.call (.variable ⟨"f", default⟩) [.number (.int 3) default] default], default⟩
    0 < world.scopes.size ∧ (∀ statement ∈ program.statements, ¬statement.Mentions "x") ∧
      (∀ f, world.scopes.ReachesFunction 0 0 "x" f → ¬f.Mentions "x") ∧
      ∀ budget, SameEnd (World.DifferAt 0 "x" (some self) (some (.string "new")))
        ((evalProgram budget 0 program).run world)
        ((evalProgram budget 0 program).run
          { world with scopes := world.scopes.set 0 "x" (.string "new") }) := by
  intro self sum f world program
  have leaf {node : Node} (names : "x" ∉ node.names) (alone : node.parts = []) :
      ¬node.Mentions "x" :=
    Node.not_mentions_iff.mpr ⟨names, by simp [alone]⟩
  have unmentioned : ∀ statement ∈ program.statements, ¬statement.Mentions "x" := by
    refine List.forall_mem_singleton.mpr (Node.not_mentions_iff.mpr ⟨List.not_mem_nil, ?_⟩)
    exact List.forall_mem_cons.mpr ⟨leaf (by simp [Node.names]) rfl,
      List.forall_mem_singleton.mpr (leaf List.not_mem_nil rfl)⟩
  have body : ¬sum.Mentions "x" := by
    refine Node.not_mentions_iff.mpr ⟨List.not_mem_nil, ?_⟩
    exact List.forall_mem_cons.mpr ⟨leaf (by simp [Node.names]) rfl,
      List.forall_mem_singleton.mpr (leaf (by simp [Node.names]) rfl)⟩
  have silent : ∀ f, world.scopes.ReachesFunction 0 0 "x" f → ¬f.Mentions "x" := by
    rintro g ⟨id, scope, -, here, binding, bound, seen, inside⟩ mentions
    obtain ⟨within, rfl⟩ := Array.getElem?_eq_some_iff.mp here
    have two : id < 2 := within
    -- Of the bindings in sight only `f` is bound to a function.
    interval_cases id
    · rcases List.mem_pair.mp bound with rfl | rfl
      · exact seen rfl rfl
      · cases inside
        rcases mentions with param | ⟨statement, member, mentions⟩
        · simp at param
        · exact body (List.mem_singleton.mp member ▸ mentions)
    · rcases List.mem_pair.mp bound with rfl | rfl <;> cases inside
  exact ⟨by decide, unmentioned, silent,
    unmentioned_name_ignored program world 0 "x" (.string "new") (by decide) unmentioned silent⟩

end Primer
