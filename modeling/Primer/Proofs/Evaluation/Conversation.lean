import Primer.Proofs.Evaluation.Isolation
import Primer.Proofs.Machine.Protocol

/-!
# The conversation of a run

Whatever a program does, and whichever calls of its console fail, the run keeps to the console
protocol. A run talks to its console only through built-in functions, each of which holds one exchange;
between two of them the protocol is at rest. Only a fault that is reported breaks it off, and after
that no call is made.
-/

namespace Primer

open Protocol

/-- What a run keeps of the conversation that started with the given console. -/
def conversing (globals : ScopeId) (start : Console) : Invariant Unit globals where
  world _ world := ∃ state, Advances start .ready world.console state ∧ state.Resting
  value _ _ := True
  node _ _ _ := True
  signal _ _ := True
  failure error world := ∃ state, Advances start .ready world.console state ∧
    (state.Resting ∨ state = .broken error.fault)
  stopped world := ∃ state, Advances start .ready world.console state ∧ state.Whole

private theorem ends_of_run {state : State} {native : Native} {scope : Scope} {console : Console}
    {ending : EStateM.Result Interruption Console Value} (resting : state.Resting)
    (ran : (native.execute scope).run console = ending) :
    Ends console state (fun _ _ reached => reached.Resting) ending :=
  ran ▸ execute_ends resting native scope

theorem conversing_lawful (globals : ScopeId) (start : Console) :
    (conversing globals start).Lawful where
  value_later _ value := value
  node_later _ node := node
  child _ _ := trivial
  number _ _ := trivial
  string _ _ := trivial
  list := by simp [conversing]
  lookup _ _ _ := trivial
  assign _ _ _ world := world
  closure _ := trivial
  enter _ _ _ _ world := ⟨(), le_rfl, world, fun _ _ => trivial⟩
  callScope _ _ world := ⟨(), le_rfl, world⟩
  answer := by
    rintro γ context callee arguments span values world value console native _ _
      ⟨state, so_far, resting⟩ answered
    cases ends_of_run resting answered with
    | ok advances rests => exact ⟨⟨_, so_far.trans advances, rests⟩, trivial⟩
  breakdown := by
    rintro γ context callee arguments span values world fault console native _ _
      ⟨state, so_far, resting⟩ failed
    cases ends_of_run resting failed with
    | failed advances => exact ⟨_, so_far.trans advances, .inr rfl⟩
  await := by
    rintro γ context callee arguments span values world console native _ _
      ⟨state, so_far, resting⟩ waits
    cases ends_of_run resting waits with
    | awaiting advances whole => exact ⟨_, so_far.trans advances, whole⟩
  fail := by
    rintro γ context node site fault span world _ _ _ ⟨state, so_far, resting⟩
    exact ⟨state, so_far, .inl resting⟩
  continuing _ := trivial
  breaking _ := trivial
  stray := by
    rintro γ context word span world _ ⟨state, so_far, resting⟩
    exact ⟨state, so_far, .inl resting⟩
  stop := by
    rintro γ world ⟨state, so_far, resting⟩
    exact ⟨state, so_far, resting.whole⟩

/-- The run ends with a runtime error of the given kind. -/
def FailsWith (result : EStateM.Result Exit World Value) (fault : RuntimeFault) : Prop :=
  ∃ error after, result = .error (.failed error) after ∧ error.fault = fault

/-- The calls of a run take the machine from its start to some state. If the conversation is broken off
there, the run reports the fault. -/
theorem exists_path (budget : Nat) (scope : ScopeId) (program : Block) (world : World) :
    ∃ calls state, ((evalProgram budget scope program).after world).console.log
        = calls.reverse ++ world.console.log ∧
      Path .ready calls state ∧
      ∀ fault, state = .broken fault → FailsWith (evalProgram budget scope program world) fault := by
  have ready : (conversing scope world.console).world () world :=
    ⟨.ready, .refl world.console .ready, trivial⟩
  have outcome : (conversing scope world.console).Outcome () ⟨scope, [.program]⟩
      (evalProgram budget scope program world) :=
    (conversing_lawful scope world.console).evalProgram budget (fun _ _ => trivial) ready
  unfold Eval.after
  generalize evalProgram budget scope program world = result at outcome ⊢
  -- Where a run does not fail, the protocol has not been broken off.
  have sound {console : Console} {state : State} (whole : state.Whole)
      (advances : Advances world.console .ready console state) :
      ∃ calls state, console.log = calls.reverse ++ world.console.log ∧
        Path .ready calls state ∧ ∀ fault, state = .broken fault → FailsWith result fault := by
    obtain ⟨calls, log, path⟩ := advances
    refine ⟨calls, state, log, path, fun fault broken => ?_⟩
    subst broken
    exact whole.elim
  cases result with
  | ok value after =>
    obtain ⟨_, _, ⟨state, advances, resting⟩, _⟩ := outcome
    exact sound resting.whole advances
  | error exit after =>
    cases exit with
    | returned | broke | continued =>
      obtain ⟨_, _, ⟨state, advances, resting⟩, _⟩ := outcome
      exact sound resting.whole advances
    | awaitingInput | outOfBudget =>
      obtain ⟨state, advances, whole⟩ := outcome
      exact sound whole advances
    | failed error =>
      obtain ⟨state, advances, resting | rfl⟩ := outcome
      · exact sound resting.whole advances
      · obtain ⟨calls, log, path⟩ := advances
        refine ⟨calls, _, log, path, fun fault same => ?_⟩
        exact ⟨error, after, rfl, State.broken.inj same⟩

/-- What the protocol asks of the calls of a run and of the way it ends. -/
structure KeepsProtocol (calls : List ConsoleCall) (result : EStateM.Result Exit World Value) :
    Prop where
  exchanges : ∃ all, Exchanges all ∧ calls <+: all
  /-- A read comes directly behind something said or asked. -/
  reads : ∀ before read after, calls = before ++ read :: after → read.written? = none →
    ∃ earlier line, before = earlier ++ [.wrote line] ∧
      ((∃ text, line = "SAY_OUTPUT:" ++ text) ∨
        ∃ (kind : InputKind) (prompt : String), line = kind.request prompt)
  writeFailed : ∀ before line message after, calls = before ++ .writeFailed line message :: after →
    after = [] ∧ FailsWith result (.io message)
  readFailed : ∀ before request (kind : InputKind) prompt message after,
    calls = before ++ request :: .readFailed message :: after →
    request.written? = some (kind.request prompt) → after = [] ∧ FailsWith result (.io message)
  readClosed : ∀ before request (kind : InputKind) prompt after,
    calls = before ++ request :: .readClosed :: after →
    request.written? = some (kind.request prompt) → after = [] ∧ FailsWith result .streamClosed

/-- Every run keeps to the console protocol, also if calls of its console fail. -/
theorem run_keeps_protocol (budget : Nat) (scope : ScopeId) (program : Block) (world : World) :
    ∃ calls, ((evalProgram budget scope program).after world).console.log
        = calls.reverse ++ world.console.log ∧
      KeepsProtocol calls ((evalProgram budget scope program).run world) := by
  obtain ⟨calls, state, log, path, breaks⟩ := exists_path budget scope program world
  refine ⟨calls, log, path.exists_exchanges, ?_, ?_, ?_, ?_⟩
  · rintro before read after rfl reads
    exact path.before_read reads
  · rintro before line message after rfl
    obtain ⟨rfl, broken⟩ := path.after_writeFailed
    exact ⟨rfl, breaks _ broken⟩
  -- A read that fails behind a request is the step at which the machine breaks off.
  · rintro before request kind prompt message after rfl asks
    obtain ⟨kind, prompt, rest⟩ := path.asked_of_request asks
    cases rest with
    | cons step rest =>
      cases step
      obtain ⟨rfl, broken⟩ := rest.eq_nil_of_broken
      exact ⟨rfl, breaks _ broken⟩
  · rintro before request kind prompt after rfl asks
    obtain ⟨kind, prompt, rest⟩ := path.asked_of_request asks
    cases rest with
    | cons step rest =>
      cases step
      obtain ⟨rfl, broken⟩ := rest.eq_nil_of_broken
      exact ⟨rfl, breaks _ broken⟩

end Primer
