import Primer.Proofs.Evaluation.Reachability
import Primer.Proofs.Evaluation.Traceback

/-!
# Where reports of runs that share a scope point

A report carries the path and the source of its own run. Its spans are locations of nodes that were
evaluated, and these may come from an earlier source: a function stays bound from one run to the next,
and its body keeps the spans of the source it was parsed from.

## Main result

`report_locations`: the spans of a report are locations of nodes of the programs run so far. Where the
scope of programs binds no function when a run starts, they are locations of nodes of the very program
that is run. `report_points_elsewhere` is a report of the other kind.

## Proof strategy

The invariant `locating` fixes a set of nodes that may be evaluated and a set of scopes from which they
may be: the first scope and all that are still to be made. What older calls have left in their scopes is
out of reach, because the way up from these scopes stays among them.
-/

namespace Primer

/-- The span is the location of one of the nodes. -/
def Located (available : Node → Prop) (span : Span) : Prop :=
  ∃ node, available node ∧ node.span = span

/-- All calls under way were entered at locations of the nodes. -/
def EntriesLocated (available : Node → Prop) (frames : List Frame) : Prop :=
  ∀ frame ∈ frames, ∀ span ∈ frame.entry, Located available span

/-- Every span of a report is the location of one of the nodes. -/
structure RuntimeError.LocatedIn (available : Node → Prop) (error : RuntimeError) : Prop where
  span : Located available error.span
  entries : EntriesLocated available error.frames

/-! ### Functions at hand -/

section Stock

variable (available : Node → Prop) (own : ScopeId → Prop)

/-- The function runs available code in one of the scopes. -/
def Function.Available (f : Function) : Prop :=
  own f.closure ∧ ∀ statement ∈ f.body.statements, available statement

/-- The scopes, among them all that are still to be made, have each other for parents and bind only
functions that run available code. -/
structure Stocked (world : World) : Prop where
  bindings : ∀ (id : ScopeId) (scope : Scope), own id → world.scopes[id]? = some scope →
    scope.Holds (Value.Every (Function.Available available own))
  parents : ∀ (id : ScopeId) (scope : Scope), own id → world.scopes[id]? = some scope →
    ∀ parent ∈ scope.parent, own parent
  fresh : ∀ id, world.scopes.size ≤ id → own id

end Stock

section

variable {available more : Node → Prop} {own : ScopeId → Prop} {world : World}
  {globals : ScopeId}

theorem EntriesLocated.cons {frames : List Frame} (entries : EntriesLocated available frames)
    {span : Span} (located : Located available span) (name : String) :
    EntriesLocated available (⟨name, some span⟩ :: frames) := by
  refine List.forall_mem_cons.mpr ⟨fun entry here => ?_, entries⟩
  obtain rfl : span = entry := Option.some.inj here
  exact located

namespace Stocked

theorem mono (stocked : Stocked available own world) (imp : ∀ node, available node → more node) :
    Stocked more own world :=
  ⟨fun id scope owned here binding bound =>
      (stocked.bindings id scope owned here binding bound).mono
        fun _ f => ⟨f.1, fun statement member => imp _ (f.2 statement member)⟩,
    stocked.parents, stocked.fresh⟩

/-- The way up from one of the scopes stays among them. -/
theorem find? (stocked : Stocked available own world) {name : String} {value : Value} {steps : Nat}
    {id : ScopeId} (owned : own id) (found : world.scopes.find? name steps id = some value) :
    value.Every (Function.Available available own) := by
  induction steps generalizing id with
  | zero => cases found
  | succ steps ih =>
    rw [Scopes.find?] at found
    split at found
    next => cases found
    next scope here =>
      split at found
      next bound =>
        cases found
        exact (stocked.bindings id scope owned here).own? bound
      next =>
        split at found
        next parent above => exact ih (stocked.parents id scope owned here parent above) found
        next => cases found

theorem set (stocked : Stocked available own world) (id : ScopeId) (name : String) {value : Value}
    (new : value.Every (Function.Available available own)) :
    Stocked available own { world with scopes := world.scopes.set id name value } := by
  constructor
  case bindings =>
    intro other scope owned here
    obtain ⟨old, there, -, rfl | rfl⟩ := Scopes.cases_of_set here
    · exact stocked.bindings other scope owned there
    · exact (stocked.bindings other old owned there).set name new
  case parents =>
    intro other scope owned here
    obtain ⟨old, there, parent, -⟩ := Scopes.cases_of_set here
    rw [parent]
    exact stocked.parents other old owned there
  case fresh => simpa [Scopes.set] using stocked.fresh

theorem push (stocked : Stocked available own world) {closure : ScopeId} (owned : own closure)
    {bindings : List (String × Value)}
    (each : ∀ binding ∈ bindings, binding.2.Every (Function.Available available own)) :
    Stocked available own { world with
      scopes := world.scopes.push ((Scope.empty (some closure)).setAll bindings) } := by
  constructor
  case bindings =>
    intro id scope owned here
    rcases Scopes.cases_of_push here with there | ⟨-, rfl⟩
    · exact stocked.bindings id scope owned there
    · exact (Scope.holds_empty _).setAll each
  case parents =>
    intro id scope owned' here parent above
    rcases Scopes.cases_of_push here with there | ⟨-, rfl⟩
    · exact stocked.parents id scope owned' there parent above
    · rw [Scope.parent_setAll] at above
      cases above
      exact owned
  case fresh =>
    intro id later
    rw [Array.size_push] at later
    exact stocked.fresh id (Nat.le_of_succ_le later)

end Stocked

/-- What the run of a program keeps. -/
def locating (globals : ScopeId) (available : Node → Prop) (own : ScopeId → Prop) :
    Invariant Unit globals where
  world _ world := Stocked available own world
  value _ value := value.Every (Function.Available available own)
  node _ context node :=
    own context.scope ∧ available node ∧ EntriesLocated available context.frames
  signal context span := Located available span ∧ EntriesLocated available context.frames
  failure error world := error.LocatedIn available ∧ Stocked available own world
  stopped world := Stocked available own world

theorem locating_lawful (top : own globals)
    (parts : ∀ node part, available node → part ∈ node.parts → available part)
    (joined : ∀ node, available node → node.Joined) : (locating globals available own).Lawful where
  value_later _ value := value
  node_later _ node := node
  child := by
    rintro γ context node child ⟨owned, here, entries⟩ member
    exact ⟨owned, parts node child here (Node.mem_parts_of_mem_children member), entries⟩
  number _ x := .number x
  string _ x := .string x
  list := Value.Every.list_iff
  lookup node stocked found := stocked.find? node.1 found
  assign _ _ value stocked := stocked.set _ _ value
  closure := by
    rintro γ context name params body span ⟨owned, here, -⟩
    exact .function ⟨owned, fun statement member => parts _ statement here member⟩
  enter := by
    rintro γ context callee arguments span f values world ⟨-, here, entries⟩ function each _ stocked
    cases function with
    | function available' =>
      obtain ⟨owned, body⟩ := available'
      refine ⟨(), le_rfl, ?_, fun node member => ⟨stocked.fresh _ (Nat.le_refl _), body node member, ?_⟩⟩
      · exact stocked.push owned fun binding member => each _ (List.of_mem_zip member).2
      · exact entries.cons ⟨_, here, rfl⟩ f.shownName
  callScope := by
    rintro γ context callee arguments span values world - each stocked
    exact ⟨(), le_rfl, stocked.push top (Scope.good_of_passed each)⟩
  answer native _ _ stocked answered :=
    ⟨⟨stocked.bindings, stocked.parents, stocked.fresh⟩,
      Native.good_of_execute .number .string answered⟩
  breakdown := by
    rintro γ context callee arguments span values world fault console native ⟨-, here, entries⟩ _ stocked _
    have located : Located available span := ⟨_, here, rfl⟩
    exact ⟨⟨located, entries.cons located native.name⟩,
      stocked.bindings, stocked.parents, stocked.fresh⟩
  await _ _ _ stocked _ := ⟨stocked.bindings, stocked.parents, stocked.fresh⟩
  fail := by
    rintro γ context node site fault span world ⟨-, here, entries⟩ raises _ stocked
    refine ⟨⟨?_, entries⟩, stocked⟩
    rcases raises.span_eq (joined node here) with rfl | ⟨child, member, rfl⟩
    · exact ⟨node, here, rfl⟩
    · exact ⟨child, parts node child here (Node.mem_parts_of_mem_children member), rfl⟩
  continuing := by
    rintro γ context span ⟨-, here, entries⟩
    exact ⟨⟨_, here, rfl⟩, entries⟩
  breaking := by
    rintro γ context span ⟨-, here, entries⟩
    exact ⟨⟨_, here, rfl⟩, entries⟩
  stray := by
    rintro γ context word span world ⟨located, entries⟩ stocked
    exact ⟨⟨located, entries⟩, stocked⟩
  stop stocked := stocked

/-- What a run from a stocked world comes to. -/
theorem Stocked.evalProgram (stocked : Stocked available own world) (top : own 0)
    (parts : ∀ node part, available node → part ∈ node.parts → available part)
    (joined : ∀ node, available node → node.Joined) {program : Block}
    (statements : ∀ statement ∈ program.statements, available statement) (budget : Nat) :
    Stocked available own ((evalProgram budget 0 program).after world) ∧
      ∀ error after, evalProgram budget 0 program world = .error (.failed error) after →
        error.LocatedIn available := by
  have nodes : ∀ statement ∈ program.statements,
      (locating 0 available own).node () ⟨0, [.program]⟩ statement := by
    intro statement member
    refine ⟨top, statements statement member, ?_⟩
    simp [EntriesLocated, Frame.program]
  have outcome : (locating 0 available own).Outcome () ⟨0, [.program]⟩
      (Primer.evalProgram budget 0 program world) :=
    (locating_lawful top parts joined).evalProgram budget nodes stocked
  refine ⟨Invariant.after_of_outcome id And.right id outcome, fun error after failed => ?_⟩
  rw [failed] at outcome
  exact outcome.1

end

/-! ### Runs one after the other -/

/-- A source to be run in the scope of programs, with the console that it talks to. -/
structure Submission where
  budget : Nat
  path : String
  source : String
  console : Console

namespace Submission

def run (submission : Submission) (world : World) : Finish × World :=
  Primer.run submission.budget submission.path submission.source 0
    { world with console := submission.console }

/-- The world that runs of several sources leave. -/
def runAll (submissions : List Submission) (world : World) : World :=
  submissions.foldl (fun world submission => (submission.run world).2) world

end Submission

/-- The node stands in a program parsed from one of the sources. -/
def StandsIn (sources : List String) (node : Node) : Prop :=
  ∃ source ∈ sources, ∃ program, parse source = .ok program ∧ program.Contains node

namespace StandsIn

variable {sources more : List String} {node : Node}

theorem part {inner : Node} (stands : StandsIn sources node) (member : inner ∈ node.parts) :
    StandsIn sources inner := by
  obtain ⟨source, known, program, parsed, contains⟩ := stands
  exact ⟨source, known, program, parsed, contains.part member⟩

theorem joined (stands : StandsIn sources node) : node.Joined := by
  obtain ⟨source, -, program, parsed, contains⟩ := stands
  exact joined_of_parse parsed node contains

theorem mono (stands : StandsIn sources node) (subset : sources ⊆ more) : StandsIn more node := by
  obtain ⟨source, known, found⟩ := stands
  exact ⟨source, subset known, found⟩

end StandsIn

section

variable {own : ScopeId → Prop} {sources : List String} {world : World} {submission : Submission}

/-- One run: from a world stocked with the programs of some sources, its own among them. -/
theorem Stocked.run (stocked : Stocked (StandsIn sources) own world) (top : own 0)
    (known : submission.source ∈ sources) :
    Stocked (StandsIn sources) own (submission.run world).2 ∧
      ∀ path source error after,
        submission.run world = (.failure (.runtime path source error), after) →
        error.LocatedIn (StandsIn sources) := by
  have opened : Stocked (StandsIn sources) own { world with console := submission.console } :=
    ⟨stocked.bindings, stocked.parents, stocked.fresh⟩
  have stand {program : Block} (parsed : parse submission.source = .ok program) :
      ∀ statement ∈ program.statements, StandsIn sources statement :=
    fun statement member => ⟨_, known, program, parsed, statement, member, .refl⟩
  have evaluated {program : Block} (parsed : parse submission.source = .ok program) :=
    opened.evalProgram top (fun _ _ stands => stands.part) (fun _ stands => stands.joined)
      (stand parsed) submission.budget
  constructor
  · cases parsed : parse submission.source with
    | error =>
      rw [Submission.run, run_world_of_error parsed]
      exact opened
    | ok program =>
      rw [Submission.run, run_world parsed]
      exact (evaluated parsed).1
  · intro path source error after ran
    obtain ⟨-, -, program, parsed, failed⟩ := exists_of_run_failed ran
    exact (evaluated parsed).2 error after failed

/-- What the sources so far stock, they stock with one more. -/
theorem Stocked.snoc {earlier : List Submission}
    (stocked : Stocked (StandsIn (earlier.map Submission.source)) own world) (last : Submission) :
    Stocked (StandsIn ((earlier ++ [last]).map Submission.source)) own world :=
  stocked.mono fun _ stands => stands.mono (by simp)

end

section

variable (console : Console) (submissions : List Submission)

/-- By induction on the runs: every function was made from a node of one of the programs. -/
theorem stocked_runAll : Stocked (StandsIn (submissions.map Submission.source)) (fun _ => True)
    (Submission.runAll submissions (.ofConsole console)) := by
  induction submissions using List.reverseRecOn with
  | nil =>
    refine ⟨fun id scope _ here => ?_, fun _ _ _ _ _ _ => trivial, fun _ _ => trivial⟩
    obtain rfl : scope = .global := by
      obtain ⟨inside, rfl⟩ := Array.getElem?_eq_some_iff.mp here
      exact List.mem_singleton.mp (Array.mem_toList_iff.mpr (Array.getElem_mem inside))
    exact Scope.holds_global .number .native
  | append_singleton submissions submission ih =>
    rw [Submission.runAll, List.foldl_append]
    exact ((ih.snoc submission).run trivial (by simp)).1

theorem leads_runAll : (World.ofConsole console).Leads
    (Submission.runAll submissions (.ofConsole console)) := by
  induction submissions using List.reverseRecOn with
  | nil => exact .refl
  | append_singleton submissions submission ih =>
    rw [Submission.runAll, List.foldl_append]
    have opened : (World.ofConsole console).Leads _ := ih.tail (.talk _ submission.console)
    exact opened.trans ((opened.sound (World.sound_ofConsole console)).leads_run _ _ _)

end

/-- Where the first scope binds no function, a run comes by the functions of its own program only. -/
theorem stocked_of_functionless {world : World} (sound : world.Sound)
    (functionless : ∀ scope, world.scopes[0]? = some scope →
      scope.Holds (Value.Every fun _ => False)) (available : Node → Prop) :
    Stocked available (fun id => id = 0 ∨ world.scopes.size ≤ id) world := by
  have outside {id : ScopeId} {scope : Scope} (here : world.scopes[id]? = some scope) :
      ¬ world.scopes.size ≤ id := by
    obtain ⟨inside, -⟩ := Array.getElem?_eq_some_iff.mp here
    exact Nat.not_le.mpr inside
  constructor
  case bindings =>
    rintro id scope (rfl | late) here binding bound
    · exact (functionless scope here binding bound).mono fun _ none => none.elim
    · exact absurd late (outside here)
  case parents =>
    rintro id scope (rfl | late) here parent above
    · rw [sound.top scope here] at above
      cases above
    · exact absurd late (outside here)
  case fresh => exact fun id late => .inr late

/-- A report carries the path and the source of its run, but its spans may be locations in an earlier
source. In the source of the run they are if no function was bound before. -/
theorem report_locations (console : Console) (earlier : List Submission) (last : Submission)
    {path source : String} {error : RuntimeError} {after : World}
    (failed : last.run (Submission.runAll earlier (.ofConsole console))
      = (.failure (.runtime path source error), after)) :
    path = last.path ∧ source = last.source ∧
    error.LocatedIn (StandsIn ((earlier ++ [last]).map Submission.source)) ∧
    ((∀ scope, (Submission.runAll earlier (.ofConsole console)).scopes[0]? = some scope →
        scope.Holds (Value.Every fun _ => False)) →
      error.LocatedIn (StandsIn [source])) := by
  obtain ⟨rfl, rfl, -⟩ := exists_of_run_failed failed
  refine ⟨rfl, rfl, ?_, fun functionless => ?_⟩
  · have stocked := (stocked_runAll console earlier).snoc last
    exact (stocked.run trivial (by simp)).2 _ _ error after failed
  · have sound := (leads_runAll console earlier).sound (World.sound_ofConsole console)
    have stocked := stocked_of_functionless sound functionless (StandsIn [last.source])
    exact (stocked.run (.inl rfl) (by simp)).2 _ _ error after failed

section StoredFunction

/-- A source that binds a function, and another that calls it. -/
def storedFunction (console : Console) : Submission :=
  ⟨9, "a.lrl", "fun f() -> 1 / 0", console⟩

def callOfStored (console : Console) : Submission :=
  ⟨9, "b.lrl", "f()", console⟩

/-- A source that binds a number to the name instead. -/
def storedNumber (console : Console) : Submission :=
  ⟨9, "c.lrl", "f = 1", console⟩

/-- The division in the body of the function, under the call in the other source. -/
def storedError : RuntimeError :=
  ⟨.operation .divisionByZero, ⟨15, 16⟩, [⟨"f", some ⟨0, 1⟩⟩, .program]⟩

/-- The call, of what is not a function. -/
def numberError : RuntimeError :=
  ⟨.operation .illegal, ⟨0, 1⟩, [.program]⟩

private theorem parse_callOfStored :
    parse "f()" = .ok ⟨[.call (.variable ⟨"f", ⟨0, 1⟩⟩) [] ⟨0, 1⟩], ⟨0, 1⟩⟩ := by
  have lexed : lex "f()" = .ok [⟨.ident "f", ⟨0, 1⟩⟩, ⟨.leftParen, ⟨1, 2⟩⟩, ⟨.rightParen, ⟨2, 3⟩⟩,
      ⟨.endOfInput, ⟨3, 3⟩⟩] := by
    decide +kernel
  rw [parse, lexed]
  rfl

private theorem run_callOfStored (console : Console) : ∃ after,
    (callOfStored console).run (Submission.runAll [storedFunction console] (.ofConsole console))
      = (.failure (.runtime "b.lrl" "f()" storedError), after) := by
  have lexed : lex "fun f() -> 1 / 0" = .ok [⟨.keyword .funWord, ⟨0, 3⟩⟩, ⟨.ident "f", ⟨4, 5⟩⟩,
      ⟨.leftParen, ⟨5, 6⟩⟩, ⟨.rightParen, ⟨6, 7⟩⟩, ⟨.arrow, ⟨8, 10⟩⟩, ⟨.int 1, ⟨11, 12⟩⟩,
      ⟨.divide, ⟨13, 14⟩⟩, ⟨.int 0, ⟨15, 16⟩⟩, ⟨.endOfInput, ⟨16, 16⟩⟩] := by
    decide +kernel
  have parsed : parse "fun f() -> 1 / 0" = .ok ⟨[.function (some ⟨"f", ⟨4, 5⟩⟩) []
      (.inline (.binary (.number (.int 1) ⟨11, 12⟩) .divide (.number (.int 0) ⟨15, 16⟩) ⟨11, 16⟩))
      ⟨4, 16⟩], ⟨4, 16⟩⟩ := by
    rw [parse, lexed]
    rfl
  simp only [Submission.runAll, List.foldl, Submission.run, callOfStored, storedFunction, Primer.run,
    parsed, parse_callOfStored]
  exact ⟨_, rfl⟩

private theorem parse_storedNumber : parse "f = 1"
    = .ok ⟨[.assign ⟨"f", ⟨0, 1⟩⟩ (.number (.int 1) ⟨4, 5⟩) ⟨0, 5⟩], ⟨0, 5⟩⟩ := by
  have lexed : lex "f = 1" = .ok [⟨.ident "f", ⟨0, 1⟩⟩, ⟨.assign, ⟨2, 3⟩⟩, ⟨.int 1, ⟨4, 5⟩⟩,
      ⟨.endOfInput, ⟨5, 5⟩⟩] := by
    decide +kernel
  rw [parse, lexed]
  rfl

private theorem run_callOfNumber (console : Console) : ∃ after,
    (callOfStored console).run (Submission.runAll [storedNumber console] (.ofConsole console))
      = (.failure (.runtime "b.lrl" "f()" numberError), after) := by
  simp only [Submission.runAll, List.foldl, Submission.run, callOfStored, storedNumber, Primer.run,
    parse_storedNumber, parse_callOfStored]
  exact ⟨_, rfl⟩

private theorem scopes_storedNumber (console : Console) :
    (Submission.runAll [storedNumber console] (.ofConsole console)).scopes
      = #[Scope.global.set "f" (.number (.int 1))] := by
  simp only [Submission.runAll, List.foldl, Submission.run, storedNumber, Primer.run,
    parse_storedNumber]
  rfl

/-- After a source that binds a function, a call of it fails in the function. After one that binds a
number, no scope has a function, and the call fails in its own source. -/
theorem report_locations_stored :
    let console : Console := .ofInput [] .none true
    (∃ after, (callOfStored console).run
          (Submission.runAll [storedFunction console] (.ofConsole console))
        = (.failure (.runtime "b.lrl" "f()" storedError), after) ∧
      storedError.LocatedIn (StandsIn ["fun f() -> 1 / 0", "f()"])) ∧
    (∀ scope, (Submission.runAll [storedNumber console] (.ofConsole console)).scopes[0]? = some scope →
      scope.Holds (Value.Every fun _ => False)) ∧
    ∃ after, (callOfStored console).run
          (Submission.runAll [storedNumber console] (.ofConsole console))
        = (.failure (.runtime "b.lrl" "f()" numberError), after) ∧
      numberError.LocatedIn (StandsIn ["f()"]) := by
  intro console
  obtain ⟨after, failed⟩ := run_callOfStored console
  obtain ⟨after', failed'⟩ := run_callOfNumber console
  have functionless : ∀ scope,
      (Submission.runAll [storedNumber console] (.ofConsole console)).scopes[0]? = some scope →
        scope.Holds (Value.Every fun _ => False) := by
    intro scope here
    rw [scopes_storedNumber] at here
    obtain rfl := Option.some.inj here
    exact (Scope.holds_global .number .native).set "f" (.number _)
  have located := report_locations console [storedFunction console] _ failed
  have located' := report_locations console [storedNumber console] _ failed'
  exact ⟨⟨after, failed, located.2.2.1⟩, functionless, after', failed',
    located'.2.2.2 functionless⟩

/-- The second of two runs fails in a function that the first has bound. The report carries the source
of the second, in which no node stands where the report points. -/
theorem report_points_elsewhere :
    let console : Console := .ofInput [] .none true
    ∃ after, (callOfStored console).run (Submission.runAll [storedFunction console] (.ofConsole console))
        = (.failure (.runtime "b.lrl" "f()" storedError), after) ∧
      ¬ storedError.LocatedIn (StandsIn ["f()"]) := by
  intro console
  obtain ⟨after, failed⟩ := run_callOfStored console
  refine ⟨after, failed, fun located => ?_⟩
  obtain ⟨node, ⟨source, known, program, parsed, statement, member, path⟩, span⟩ := located.span
  obtain rfl : source = "f()" := List.mem_singleton.mp known
  obtain rfl := Except.ok.inj (parse_callOfStored.symm.trans parsed)
  obtain rfl := List.mem_singleton.mp member
  -- The call has one part, the name of the function.
  rcases Relation.ReflTransGen.cases_tail path with rfl | ⟨callee, below, inner⟩
  · cases span
  · obtain rfl := List.mem_singleton.mp inner
    rcases Relation.ReflTransGen.cases_tail below with rfl | ⟨_, _, none⟩
    · cases span
    · cases none

end StoredFunction

end Primer
