import Primer.Proofs.Evaluation.Isolation
import Primer.Proofs.Machine.Protocol
import Primer.Proofs.Machine.ScopeGraph

/-!
# The worlds that runs lead to

Every evaluation is a sequence of steps of the world, whichever way it ends. So what steps keep holds
between runs and in the middle of them, behind runs that failed too: the way up from every scope ends in
the scope of programs, parents stay, and bound names stay bound.

A name is reported as not defined only where the whole way up does not bind it. The way ends in the
scope of programs, so a name that is bound there is defined everywhere from then on.
-/

namespace Primer

/-- What an evaluation keeps that starts from a world, by the number of scopes made so far. -/
def stepping (start : World) : Invariant Nat 0 where
  world count world := start.Leads world ∧ world.scopes.size = count
  value count value := value.Closed count
  node count context _ := context.scope < count
  signal _ _ := True
  failure error world :=
    start.Leads world ∧ ∀ name, start.Binds 0 name → error.fault ≠ .notDefined name
  stopped world := start.Leads world

theorem stepping_lawful {start : World} (sound : start.Sound) : (stepping start).Lawful where
  value_later later closed := closed.mono later
  node_later later inside := Nat.lt_of_lt_of_le inside later
  child inside _ := inside
  number _ x := .number x
  string _ x := .string x
  list := Value.Every.list_iff
  lookup := by
    rintro count context ident value world _ ⟨leads, rfl⟩ found
    exact (leads.sound sound).closed.get? found
  assign := by
    rintro count context node name value world inside _ closed ⟨leads, rfl⟩
    refine ⟨leads.tail (.bind world name inside closed), ?_⟩
    simp [Scopes.set]
  closure inside := .function inside
  enter := by
    rintro count context callee arguments span f values world _ function each _ ⟨leads, rfl⟩
    cases function with
    | function inside =>
      have bindings : ∀ binding ∈ f.params.zip values, binding.2.Closed world.scopes.size :=
        fun binding member => each _ (List.of_mem_zip member).2
      refine ⟨world.scopes.size + 1, Nat.le_succ _, ⟨leads.tail (.enter world inside bindings), ?_⟩,
        fun node _ => Nat.lt_succ_self _⟩
      exact Array.size_push _
  callScope := by
    rintro count context callee arguments span values world _ each ⟨leads, rfl⟩
    have inside := (leads.sound sound).inhabited
    refine ⟨world.scopes.size + 1, Nat.le_succ _,
      leads.tail (.enter world inside (Scope.good_of_passed each)), ?_⟩
    exact Array.size_push _
  answer := by
    rintro count context callee arguments span values world value console native _ _ ⟨leads, rfl⟩ answered
    exact ⟨⟨leads.tail (.talk world console), rfl⟩, Native.good_of_execute .number .string answered⟩
  breakdown := by
    rintro count context callee arguments span values world fault console native _ _ ⟨leads, rfl⟩ failed
    refine ⟨leads.tail (.talk world console), fun name _ => ?_⟩
    rcases Protocol.fault_of_execute failed with rfl | ⟨message, rfl⟩ <;> simp
  await := by
    rintro count context callee arguments span values world console native _ _ ⟨leads, rfl⟩ _
    exact leads.tail (.talk world console)
  fail := by
    rintro count context node site fault span world inside _ justified ⟨leads, rfl⟩
    refine ⟨leads, fun name binds undefined => ?_⟩
    -- Otherwise the name would be found at the end of the way up.
    have defined := (leads.sound sound).get?_ne_none inside (leads.grows.binds binds)
    exact defined (justified name undefined)
  continuing _ := trivial
  breaking _ := trivial
  stray := by
    rintro count context word span world _ ⟨leads, rfl⟩
    exact ⟨leads, fun name _ => by simp⟩
  stop world := world.1

/-! ### Evaluations and runs are steps -/

/-- What evaluating does to a world: it leads on, and if it fails, then not for want of a name that the
first scope binds. -/
structure Leading (world : World) (action : Eval Value) : Prop where
  leads : world.Leads (action.after world)
  defined : ∀ error after name, action world = .error (.failed error) after → world.Binds 0 name →
    error.fault ≠ .notDefined name

theorem leading_of_outcome {world : World} {count : Nat} {context : Context 0} {action : Eval Value}
    (outcome : (stepping world).Outcome count context (action world)) : Leading world action := by
  refine ⟨Invariant.after_of_outcome And.left And.left id outcome, ?_⟩
  intro error after name failed binds
  rw [failed] at outcome
  exact outcome.2 name binds

namespace World.Sound

variable {world : World}

theorem leading_eval (sound : world.Sound) (budget : Nat) {context : Context 0} (node : Node)
    (inside : context.scope < world.scopes.size) : Leading world (eval budget context node) := by
  have holds : (stepping world).node world.scopes.size context node := inside
  exact leading_of_outcome ((stepping_lawful sound).eval budget holds ⟨.refl, rfl⟩)

theorem leading_body (sound : world.Sound) (budget : Nat) {context : Context 0} (body : Body)
    (inside : context.scope < world.scopes.size) :
    Leading world (Eval.body (eval budget) context body) := by
  have holds : ∀ statement ∈ body.statements,
      (stepping world).node world.scopes.size context statement := fun _ _ => inside
  exact leading_of_outcome ((stepping_lawful sound).body budget holds ⟨.refl, rfl⟩)

/-- The scope of a call is made first, and its parent stays what it is. -/
theorem parent_of_call (sound : world.Sound) (budget : Nat) (context : Context 0) (f : Function)
    {arguments : List Value} (span : Span) (inside : f.closure < world.scopes.size)
    (closed : ∀ argument ∈ arguments, argument.Closed world.scopes.size)
    (fits : f.params.length = arguments.length) :
    ∃ scope, ((Eval.apply (eval budget) context (.function f) arguments span).after
        world).scopes[world.scopes.size]? = some scope ∧
      scope.parent = some f.closure := by
  let scope := (Scope.empty (some f.closure)).setAll (f.params.zip arguments)
  let made : World := { world with scopes := world.scopes.push scope }
  let called : Context 0 := ⟨world.scopes.size, ⟨f.shownName, some span⟩ :: context.frames⟩
  have entered : world.Step made :=
    .enter world inside fun binding member => closed _ (List.of_mem_zip member).2
  have within : called.scope < made.scopes.size := by simp [called, made]
  have ran : (Eval.apply (eval budget) context (.function f) arguments span).after world
      = (Eval.body (eval budget) called f.body).after made := by
    rw [Eval.after, apply_function_eq _ _ f span world fits]
    exact Eval.after_finishCall called _ made
  have leads := ((entered.sound sound).leading_body budget f.body within).leads
  obtain ⟨later, here, grown⟩ := leads.grows world.scopes.size scope Array.getElem?_push_size
  rw [ran]
  exact ⟨later, here, grown.parent.trans (Scope.parent_setAll _ _)⟩

theorem ancestry_of_native (sound : world.Sound) (budget : Nat) (context : Context 0)
    (native : Native) {arguments : List Value} (span : Span)
    (fits : ∀ arity ∈ native.arity?, arity = arguments.length) :
    let after := (Eval.apply (eval budget) context (.native native) arguments span).after world
    after.scopes = world.scopes.push (Native.callScope 0 arguments) ∧
      after.scopes.Ancestry world.scopes.size [world.scopes.size, 0] := by
  intro after
  let called : Context 0 := ⟨world.scopes.size, ⟨native.name, some span⟩ :: context.frames⟩
  have pushed : after.scopes = world.scopes.push (Native.callScope 0 arguments) := by
    simp only [after]
    rw [Eval.after, apply_native_eq _ _ native span world fits]
    exact Eval.scopes_after_converse called span _ _
  have first := Array.getElem?_eq_getElem sound.inhabited
  have last : (world.scopes.push (Native.callScope 0 arguments))[world.scopes.size]?
      = some (Native.callScope 0 arguments) := Array.getElem?_push_size
  refine ⟨pushed, ?_⟩
  rw [pushed]
  refine .up last (Scope.parent_setAll _ _) (.top ?_ (sound.top _ first))
  rw [Array.getElem?_push_lt sound.inhabited]

theorem leading_evalProgram (sound : world.Sound) (budget : Nat) (program : Block) :
    Leading world (evalProgram budget 0 program) := by
  have top : ∀ statement ∈ program.statements,
      (stepping world).node world.scopes.size ⟨0, [.program]⟩ statement :=
    fun _ _ => sound.inhabited
  have outcome : (stepping world).Outcome world.scopes.size ⟨0, [.program]⟩
      (evalProgram budget 0 program world) :=
    (stepping_lawful sound).evalProgram budget top ⟨.refl, rfl⟩
  exact leading_of_outcome outcome

end World.Sound

section Run

variable {budget : Nat} {path source : String} {scope : ScopeId} {world : World} {program : Block}

theorem run_world (parsed : parse source = .ok program) :
    (run budget path source scope world).2 = (evalProgram budget scope program).after world := by
  simp only [run, parsed, runProgram, EStateM.run, Eval.after]
  cases evalProgram budget scope program world with
  | ok => rfl
  | error exit => cases exit <;> rfl

/-- A source that does not parse changes nothing. -/
theorem run_world_of_error {error : ParseError} (failed : parse source = .error error) :
    (run budget path source scope world).2 = world := by
  simp only [run, failed]

/-- A run that fails at run time names its own path and source, and its program has failed. -/
theorem exists_of_run_failed {path' source' : String} {error : RuntimeError} {after : World}
    (ran : run budget path source scope world = (.failure (.runtime path' source' error), after)) :
    path' = path ∧ source' = source ∧ ∃ program, parse source = .ok program ∧
      evalProgram budget scope program world = .error (.failed error) after := by
  cases parsed : parse source with
  | error => simp [run, parsed] at ran
  | ok program =>
    simp only [run, parsed, runProgram, EStateM.run] at ran
    cases result : evalProgram budget scope program world with
    | ok => simp [result] at ran
    | error exit =>
      cases exit with
      | failed => simp_all
      | _ => simp [result] at ran

theorem World.Sound.leads_run (sound : world.Sound) (budget : Nat) (path source : String) :
    world.Leads (run budget path source 0 world).2 := by
  cases parsed : parse source with
  | error =>
    rw [run_world_of_error parsed]
    exact .refl
  | ok program =>
    rw [run_world parsed]
    exact (sound.leading_evalProgram budget program).leads

end Run

/-- What the scopes of a world have to do with each other, and with those of later worlds. -/
structure World.Connected (world : World) : Prop where
  /-- Runs and evaluations lead from here to worlds that steps lead to. -/
  runs : ∀ budget path source, world.Leads (run budget path source 0 world).2
  evaluations : ∀ budget (context : Context 0) node, context.scope < world.scopes.size →
    world.Leads ((eval budget context node).after world)
  /-- The scope of a call is inside the one that the function was created in. -/
  calls : ∀ budget (context : Context 0) (f : Function) arguments span,
    f.closure < world.scopes.size → (∀ argument ∈ arguments, argument.Closed world.scopes.size) →
    f.params.length = arguments.length →
    ∃ scope, ((Eval.apply (eval budget) context (.function f) arguments span).after
        world).scopes[world.scopes.size]? = some scope ∧
      scope.parent = some f.closure
  /-- A call of a built-in function makes one scope, right inside that of programs. -/
  builtins : ∀ budget (context : Context 0) (native : Native) arguments span,
    (∀ arity ∈ native.arity?, arity = arguments.length) →
    let after := (Eval.apply (eval budget) context (.native native) arguments span).after world
    after.scopes = world.scopes.push (Native.callScope 0 arguments) ∧
      after.scopes.Ancestry world.scopes.size [world.scopes.size, 0]
  /-- The way up ends in the first scope, without a circle, and a name is looked up along it. -/
  rooted : ∀ id < world.scopes.size, ∃ chain, world.scopes.Ancestry id chain ∧ chain.Nodup ∧
    ∀ name, world.scopes.get? id name = chain.findSome? (world.scopes.ownAt? name)
  /-- Parents stay, and bound names stay bound. -/
  grows : ∀ later, world.Leads later → world.Grows later
  standard : ∀ name ∈ ["null", "true", "false", "say", "get_int", "get_float", "get_string"],
    world.Binds 0 name
  /-- What the first scope binds is defined in all scopes from then on. -/
  defined : ∀ later name, world.Leads later → world.Binds 0 name →
    (∀ budget (context : Context 0) node error after, context.scope < later.scopes.size →
      eval budget context node later = .error (.failed error) after →
      error.fault ≠ .notDefined name) ∧
    ∀ budget path source path' source' error after,
      run budget path source 0 later = (.failure (.runtime path' source' error), after) →
      error.fault ≠ .notDefined name

theorem binds_standard (console : Console) :
    ∀ name ∈ ["null", "true", "false", "say", "get_int", "get_float", "get_string"],
      (World.ofConsole console).Binds 0 name := by
  have bound : ["null", "true", "false", "say", "get_int", "get_float", "get_string"].all
      (fun name => (Scope.global.own? name).isSome) = true := by decide
  exact fun name member => ⟨.global, rfl, List.all_eq_true.mp bound name member⟩

/-- Whatever is run in the scope of programs, the scopes stay connected to it. -/
theorem connected_of_leads {console : Console} {world : World}
    (reached : (World.ofConsole console).Leads world) : world.Connected := by
  have sound := reached.sound (World.sound_ofConsole console)
  constructor
  case runs => exact sound.leads_run
  case evaluations =>
    exact fun budget context node inside => (sound.leading_eval budget node inside).leads
  case calls =>
    exact fun budget context f arguments span inside closed fits =>
      sound.parent_of_call budget context f span inside closed fits
  case builtins =>
    exact fun budget context native arguments span fits =>
      sound.ancestry_of_native budget context native span fits
  case rooted =>
    intro id inside
    obtain ⟨chain, ancestry, distinct, -, short⟩ := sound.exists_ancestry inside
    exact ⟨chain, ancestry, distinct, fun name => ancestry.find?_eq name short⟩
  case grows => exact fun later leads => leads.grows
  case standard =>
    exact fun name member => reached.grows.binds (binds_standard console name member)
  case defined =>
    intro later name leads binds
    have sound' := leads.sound sound
    have binds' := leads.grows.binds binds
    constructor
    · intro budget context node error after inside failed
      exact (sound'.leading_eval budget node inside).defined error after name failed binds'
    · intro budget path source path' source' error after ran
      obtain ⟨-, -, program, -, failed⟩ := exists_of_run_failed ran
      exact (sound'.leading_evalProgram budget program).defined error after name failed binds'

/-- A function made in a call is called in its turn and says its value. The scope of the second call is
inside that of the first, and the scope of the call of `say` is right inside that of programs. -/
theorem connected_of_leads_nested :
    let start := World.ofConsole (.ofInput [] .none true)
    let world := (run 9 "nested" "fun f(x) -> fun() -> say(x); f(1)()" 0 start).2
    start.Leads world ∧ world.scopes.Ancestry 2 [2, 1, 0] ∧ world.scopes.Ancestry 3 [3, 0] ∧
      world.Connected := by
  intro start world
  have leads : start.Leads world := (connected_of_leads .refl).runs 9 _ _
  have parents : world.scopes.toList.map Scope.parent = [none, some 0, some 1, some 0] := by
    decide +kernel
  have above {id : ScopeId} {parent : Option ScopeId}
      (known : ([none, some 0, some 1, some 0] : List (Option ScopeId))[id]? = some parent) :
      ∃ scope, world.scopes[id]? = some scope ∧ scope.parent = parent := by
    rwa [← parents, List.getElem?_map, Option.map_eq_some_iff, Array.getElem?_toList] at known
  obtain ⟨_, here, top⟩ := @above 0 none rfl
  obtain ⟨_, here', up⟩ := @above 1 (some 0) rfl
  obtain ⟨_, here'', up'⟩ := @above 2 (some 1) rfl
  obtain ⟨_, said, up''⟩ := @above 3 (some 0) rfl
  exact ⟨leads, .up here'' up' (.up here' up (.top here top)), .up said up'' (.top here top),
    connected_of_leads leads⟩

end Primer
