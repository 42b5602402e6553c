import Mathlib
import Primer.Machine.Dialogue

/-!
# The console protocol

The calls of a console come in exchanges. A program says something and one line is read to acknowledge
it, or a program asks for input and lines are read until one of them answers: each line that does not
is quoted back, and the same request is written again.

`Exchange` is the grammar of exchanges. `Protocol.Step` is the same protocol as a machine that goes from
state to state with every call; it also says where a conversation breaks off. The built-in functions
keep to the machine (`Protocol.execute_ends`), and what the machine accepts can be completed to a
sequence of exchanges (`Protocol.Path.exists_exchanges`).
-/

namespace Primer

/-- The line that a call writes or fails to write; the other calls are reads. -/
def ConsoleCall.written? : ConsoleCall → Option String
  | .wrote line => some line
  | .writeFailed line _ => some line
  | .read _ | .readClosed | .readFailed _ => none

/-! ### The grammar of exchanges -/

/-- What follows a request: a read, or a line that is no answer, the complaint about it, the request
again and what follows that. -/
inductive Replies (kind : InputKind) (prompt : String) : List ConsoleCall → Prop
  | last {read : ConsoleCall} (reads : read.written? = none) : Replies kind prompt [read]
  | again {line : String} {complaint request : ConsoleCall} {others : List ConsoleCall}
      (numeric : kind ≠ .string) (complains : complaint.written? = some (kind.complaint line))
      (asks : request.written? = some (kind.request prompt)) (replies : Replies kind prompt others) :
      Replies kind prompt (.read line :: complaint :: request :: others)

/-- Something said and its acknowledgement, or a request and what follows it. -/
inductive Exchange : List ConsoleCall → Prop
  | say {write read : ConsoleCall} (text : String)
      (speaks : write.written? = some ("SAY_OUTPUT:" ++ text)) (reads : read.written? = none) :
      Exchange [write, read]
  | inquiry {request : ConsoleCall} {others : List ConsoleCall} (kind : InputKind) (prompt : String)
      (asks : request.written? = some (kind.request prompt)) (replies : Replies kind prompt others) :
      Exchange (request :: others)

/-- Exchanges one after another. -/
def Exchanges (calls : List ConsoleCall) : Prop :=
  ∃ exchanges : List (List ConsoleCall), (∀ exchange ∈ exchanges, Exchange exchange) ∧
    calls = exchanges.flatten

theorem Exchanges.nil : Exchanges [] :=
  ⟨[], by simp, rfl⟩

theorem Exchanges.append {exchange calls : List ConsoleCall} (first : Exchange exchange)
    (others : Exchanges calls) : Exchanges (exchange ++ calls) := by
  obtain ⟨exchanges, each, rfl⟩ := others
  refine ⟨exchange :: exchanges, ?_, by simp⟩
  simpa using ⟨first, each⟩

namespace Protocol

/-! ### The protocol as a machine -/

/-- Where a conversation stands. After a line has been heard the next exchange may start, or else the
line was no answer. -/
inductive State where
  | ready
  | said
  | asked (kind : InputKind) (prompt : String)
  | heard (kind : InputKind) (prompt line : String)
  | rejected (kind : InputKind) (prompt : String)
  | broken (fault : RuntimeFault)

/-- No exchange is under way. -/
def State.Resting : State → Prop
  | .ready | .heard _ _ _ => True
  | _ => False

/-- The conversation has not broken off. -/
def State.Whole : State → Prop
  | .broken _ => False
  | _ => True

theorem State.Resting.whole {state : State} (resting : state.Resting) : state.Whole := by
  cases state <;> simp_all [State.Resting, State.Whole]

/-- The lines that may be written in a state, and the state they lead to. -/
inductive Writes : State → String → State → Prop
  | say {state : State} (resting : state.Resting) (text : String) :
      Writes state ("SAY_OUTPUT:" ++ text) .said
  | ask {state : State} (resting : state.Resting) (kind : InputKind) (prompt : String) :
      Writes state (kind.request prompt) (.asked kind prompt)
  | complain {kind : InputKind} (numeric : kind ≠ .string) (prompt line : String) :
      Writes (.heard kind prompt line) (kind.complaint line) (.rejected kind prompt)
  | askAgain (kind : InputKind) (prompt : String) :
      Writes (.rejected kind prompt) (kind.request prompt) (.asked kind prompt)

/-- One call. A failure breaks the conversation off, unless it is the failure to read an
acknowledgement. -/
inductive Step : State → ConsoleCall → State → Prop
  | wrote {state next : State} {line : String} (writes : Writes state line next) :
      Step state (.wrote line) next
  | writeFailed {state next : State} {line : String} (writes : Writes state line next)
      (message : String) : Step state (.writeFailed line message) (.broken (.io message))
  | acknowledge {read : ConsoleCall} (reads : read.written? = none) : Step .said read .ready
  | hear (kind : InputKind) (prompt line : String) :
      Step (.asked kind prompt) (.read line) (.heard kind prompt line)
  | readClosed (kind : InputKind) (prompt : String) :
      Step (.asked kind prompt) .readClosed (.broken .streamClosed)
  | readFailed (kind : InputKind) (prompt message : String) :
      Step (.asked kind prompt) (.readFailed message) (.broken (.io message))

/-- The calls of a conversation lead from one state to another. -/
inductive Path : State → List ConsoleCall → State → Prop
  | nil (state : State) : Path state [] state
  | cons {state next last : State} {call : ConsoleCall} {calls : List ConsoleCall}
      (step : Step state call next) (path : Path next calls last) : Path state (call :: calls) last

theorem Path.append {state next last : State} {calls others : List ConsoleCall}
    (path : Path state calls next) (further : Path next others last) :
    Path state (calls ++ others) last := by
  induction path with
  | nil => exact further
  | cons step _ ih => exact .cons step (ih further)

theorem Path.single {state next : State} {call : ConsoleCall} (step : Step state call next) :
    Path state [call] next :=
  .cons step (.nil next)

theorem Path.split {state last : State} {calls others : List ConsoleCall}
    (path : Path state (calls ++ others) last) :
    ∃ next, Path state calls next ∧ Path next others last := by
  induction calls generalizing state with
  | nil => exact ⟨state, .nil state, path⟩
  | cons call calls ih =>
    cases path with
    | cons step path =>
      obtain ⟨next, front, back⟩ := ih path
      exact ⟨next, .cons step front, back⟩

/-! ### What the machine accepts is a sequence of exchanges -/

/-- What follows a request, and the exchanges after that. -/
def Replying (kind : InputKind) (prompt : String) (calls : List ConsoleCall) : Prop :=
  ∃ replies others, calls = replies ++ others ∧ Replies kind prompt replies ∧ Exchanges others

/-- The same with the request in front. -/
def Asking (kind : InputKind) (prompt : String) (calls : List ConsoleCall) : Prop :=
  ∃ request others, calls = request :: others ∧
    request.written? = some (kind.request prompt) ∧ Replying kind prompt others

/-- The calls that bring a conversation to an end from a state on, in the grammar of exchanges. -/
def Completes : State → List ConsoleCall → Prop
  | .ready, calls => Exchanges calls
  | .said, calls => ∃ read others, calls = read :: others ∧ read.written? = none ∧ Exchanges others
  | .asked kind prompt, calls => Replying kind prompt calls
  | .heard kind prompt line, calls => Exchanges calls ∨ kind ≠ .string ∧
      ∃ complaint others, calls = complaint :: others ∧
        complaint.written? = some (kind.complaint line) ∧ Asking kind prompt others
  | .rejected kind prompt, calls => Asking kind prompt calls
  | .broken _, _ => True

theorem completes_of_resting {state : State} {calls : List ConsoleCall} (resting : state.Resting)
    (exchanges : Exchanges calls) : Completes state calls := by
  cases state with
  | ready => exact exchanges
  | heard => exact .inl exchanges
  | _ => exact resting.elim

/-- Every state can be brought to an end. -/
theorem exists_completes (state : State) : ∃ calls, Completes state calls := by
  have replying (kind : InputKind) (prompt : String) : Replying kind prompt [.readClosed] :=
    ⟨[.readClosed], [], rfl, .last rfl, .nil⟩
  cases state with
  | ready => exact ⟨[], .nil⟩
  | said => exact ⟨[.readClosed], .readClosed, [], rfl, rfl, .nil⟩
  | asked kind prompt => exact ⟨[.readClosed], replying kind prompt⟩
  | heard => exact ⟨[], .inl .nil⟩
  | rejected kind prompt =>
    exact ⟨[.wrote (kind.request prompt), .readClosed], _, _, rfl, rfl, replying kind prompt⟩
  | broken => exact ⟨[], trivial⟩

/-- A line that may be written goes in front of what completes the state behind it, whether or not it
was written in vain. -/
theorem Writes.completes {state next : State} {line : String} {call : ConsoleCall}
    {calls : List ConsoleCall} (writes : Writes state line next) (written : call.written? = some line)
    (completes : Completes next calls) : Completes state (call :: calls) := by
  cases writes with
  | say resting text =>
    obtain ⟨read, others, rfl, reads, exchanges⟩ := completes
    exact completes_of_resting resting (exchanges.append (.say text written reads))
  | ask resting kind prompt =>
    obtain ⟨replies, others, rfl, follows, exchanges⟩ := completes
    exact completes_of_resting resting (exchanges.append (.inquiry kind prompt written follows))
  | complain numeric => exact .inr ⟨numeric, call, calls, rfl, written, completes⟩
  | askAgain => exact ⟨call, calls, rfl, written, completes⟩

theorem Path.eq_nil_of_broken {fault : RuntimeFault} {calls : List ConsoleCall} {last : State}
    (path : Path (.broken fault) calls last) : calls = [] ∧ last = .broken fault := by
  cases path with
  | nil => exact ⟨rfl, rfl⟩
  | cons step _ =>
    cases step with
    | wrote writes | writeFailed writes =>
      cases writes with
      | say resting | ask resting => exact resting.elim

theorem Path.exists_completes {state last : State} {calls : List ConsoleCall}
    (path : Path state calls last) : ∃ others, Completes state (calls ++ others) := by
  induction path with
  | nil state => exact Protocol.exists_completes state
  | @cons state next last call calls step path ih =>
    obtain ⟨others, completes⟩ := ih
    cases step with
    | wrote writes => exact ⟨others, writes.completes rfl completes⟩
    | @writeFailed _ next line writes message =>
      -- The line was not written, and nothing was after it: it is completed as if it had been.
      obtain ⟨rfl, -⟩ := path.eq_nil_of_broken
      obtain ⟨others, completes⟩ := Protocol.exists_completes next
      exact ⟨others, writes.completes rfl completes⟩
    | acknowledge reads => exact ⟨others, _, _, rfl, reads, completes⟩
    | hear kind prompt line =>
      refine ⟨others, ?_⟩
      rcases completes with exchanges | ⟨numeric, complaint, rest, split, complains, asking⟩
      · exact ⟨[.read line], _, rfl, .last rfl, exchanges⟩
      · obtain ⟨request, tail, rfl, asks, replies, after, rfl, follows, exchanges⟩ := asking
        refine ⟨.read line :: complaint :: request :: replies, after, ?_, ?_, exchanges⟩
        · rw [List.cons_append, split]
          rfl
        · exact .again numeric complains asks follows
    | readClosed | readFailed =>
      obtain ⟨rfl, -⟩ := path.eq_nil_of_broken
      exact ⟨[], [_], [], rfl, .last rfl, .nil⟩

/-- The calls that lead anywhere from the start are the first calls of a sequence of exchanges. -/
theorem Path.exists_exchanges {last : State} {calls : List ConsoleCall}
    (path : Path .ready calls last) : ∃ all, Exchanges all ∧ calls <+: all := by
  obtain ⟨others, exchanges⟩ := path.exists_completes
  exact ⟨calls ++ others, exchanges, List.prefix_append calls others⟩

/-! ### What stands next to what -/

/-- A read comes directly behind something said or asked. -/
theorem Path.before_read {last : State} {calls others : List ConsoleCall} {read : ConsoleCall}
    (path : Path .ready (calls ++ read :: others) last) (reads : read.written? = none) :
    ∃ earlier line, calls = earlier ++ [.wrote line] ∧
      ((∃ text, line = "SAY_OUTPUT:" ++ text) ∨
        ∃ (kind : InputKind) (prompt : String), line = kind.request prompt) := by
  obtain ⟨next, front, back⟩ := path.split
  have due : next = .said ∨ ∃ kind prompt, next = .asked kind prompt := by
    cases back with
    | cons step _ =>
      cases step with
      | wrote | writeFailed => simp [ConsoleCall.written?] at reads
      | acknowledge => exact .inl rfl
      | hear kind prompt | readClosed kind prompt | readFailed kind prompt =>
        exact .inr ⟨kind, prompt, rfl⟩
  rcases calls.eq_nil_or_concat with rfl | ⟨earlier, call, rfl⟩
  -- At the start nothing has been said, so no read is due.
  · cases front
    simp at due
  · rw [List.concat_eq_append] at front ⊢
    obtain ⟨state, -, final⟩ := front.split
    cases final with
    | cons step path =>
      cases path
      cases step with
      | wrote writes =>
        cases writes with
        | say _ text => exact ⟨earlier, _, rfl, .inl ⟨text, rfl⟩⟩
        | ask _ kind prompt | askAgain kind prompt =>
          exact ⟨earlier, _, rfl, .inr ⟨kind, prompt, rfl⟩⟩
        | complain => simp at due
      | _ => simp at due

theorem Writes.whole {state next : State} {line : String} (writes : Writes state line next) :
    next.Whole := by
  cases writes <;> trivial

/-- What breaks a conversation off is a failure of the console. -/
theorem Path.fault_of_broken {state : State} {calls : List ConsoleCall} {fault : RuntimeFault}
    (path : Path state calls (.broken fault)) (whole : state.Whole) :
    fault = .streamClosed ∨ ∃ message, fault = .io message := by
  generalize broken : State.broken fault = last at path
  induction path with
  | nil =>
    subst broken
    exact whole.elim
  | cons step path ih =>
    cases step with
    | wrote writes => exact ih writes.whole broken
    | acknowledge | hear => exact ih trivial broken
    | writeFailed _ message | readFailed _ _ message =>
      obtain ⟨-, rfl⟩ := path.eq_nil_of_broken
      cases broken
      exact .inr ⟨message, rfl⟩
    | readClosed =>
      obtain ⟨-, rfl⟩ := path.eq_nil_of_broken
      cases broken
      exact .inl rfl

/-- A write that fails is the last call. -/
theorem Path.after_writeFailed {last : State} {calls others : List ConsoleCall}
    {line message : String} {state : State}
    (path : Path state (calls ++ .writeFailed line message :: others) last) :
    others = [] ∧ last = .broken (.io message) := by
  obtain ⟨next, -, back⟩ := path.split
  cases back with
  | cons step path =>
    cases step with
    | writeFailed => exact path.eq_nil_of_broken
    | acknowledge reads => simp [ConsoleCall.written?] at reads

private theorem second_append {opening : String} {c d : Char} {rest : List Char}
    (chars : opening.toList = c :: d :: rest) (text : String) :
    (opening ++ text).toList[1]? = some d := by
  rewrite [String.toList_append, chars]
  rfl

private theorem second_request (kind : InputKind) (prompt : String) :
    (kind.request prompt).toList[1]? = some 'N' := by
  unfold InputKind.request
  rewrite [String.append_assoc, String.append_assoc]
  exact second_append (by rfl) _

/-- A request is told from the other lines by its second character. -/
private theorem not_request_of_second {line : String} {c : Char} (second : line.toList[1]? = some c)
    (other : c ≠ 'N') (kind : InputKind) (prompt : String) : line ≠ kind.request prompt := by
  rintro rfl
  rw [second_request, Option.some.injEq] at second
  exact other second.symm

/-- After a request has been written, its answer is due. -/
theorem Path.asked_of_request {state last : State} {calls others : List ConsoleCall}
    {request read : ConsoleCall} {kind : InputKind} {prompt : String}
    (path : Path state (calls ++ request :: read :: others) last)
    (asks : request.written? = some (kind.request prompt)) :
    ∃ kind prompt, Path (.asked kind prompt) (read :: others) last := by
  obtain ⟨next, -, back⟩ := path.split
  cases back with
  | cons step path =>
    cases step with
    | wrote writes =>
      simp only [ConsoleCall.written?, Option.some.injEq] at asks
      cases writes with
      | ask _ kind prompt | askAgain kind prompt => exact ⟨kind, prompt, path⟩
      | say _ text =>
        have second : ("SAY_OUTPUT:" ++ text).toList[1]? = some 'A' := second_append (by rfl) text
        exact absurd asks (not_request_of_second second (by decide) kind prompt)
      | @complain spoken _ _ line =>
        have second : (spoken.complaint line).toList[1]? = some 'n' := by
          cases spoken <;> exact second_append (by rfl) line
        exact absurd asks (not_request_of_second second (by decide) kind prompt)
    | writeFailed =>
      obtain ⟨impossible, -⟩ := path.eq_nil_of_broken
      simp at impossible
    | acknowledge reads | hear | readClosed | readFailed =>
      simp_all [ConsoleCall.written?]

/-! ### Built-in functions keep to the machine -/

/-- The calls put on record between two consoles lead from one state to another. -/
def Advances (before : Console) (state : State) (after : Console) (next : State) : Prop :=
  ∃ calls : List ConsoleCall, after.log = calls.reverse ++ before.log ∧ Path state calls next

section Advances

variable {before between after : Console} {state next last : State}

theorem Advances.refl (console : Console) (state : State) : Advances console state console state :=
  ⟨[], rfl, .nil state⟩

theorem Advances.trans (first : Advances before state between next)
    (second : Advances between next after last) : Advances before state after last := by
  obtain ⟨calls, log, path⟩ := first
  obtain ⟨others, log', path'⟩ := second
  refine ⟨calls ++ others, ?_, path.append path'⟩
  simp [log, log']

theorem Advances.call {call : ConsoleCall} (step : Step state call next)
    (log : after.log = call :: before.log) : Advances before state after next :=
  ⟨[call], by simpa using log, .single step⟩

end Advances

/-- The ways a dialogue ends that keeps to the machine: it yields a result, it breaks off with the
fault that it reports, or it waits for a line while nothing is broken. -/
inductive Ends {α : Type} (before : Console) (state : State)
    (results : α → Console → State → Prop) : EStateM.Result Interruption Console α → Prop
  | ok {a : α} {after : Console} {next : State} (advances : Advances before state after next)
      (result : results a after next) : Ends before state results (.ok a after)
  | failed {fault : RuntimeFault} {after : Console}
      (advances : Advances before state after (.broken fault)) :
      Ends before state results (.error (.failed fault) after)
  | awaiting {after : Console} {next : State} (advances : Advances before state after next)
      (whole : next.Whole) : Ends before state results (.error .awaitingInput after)

section Dialogues

variable {α β : Type} {before console : Console} {state next : State}
  {results : α → Console → State → Prop} {results' : β → Console → State → Prop}

theorem Ends.after {ending : EStateM.Result Interruption Console α}
    (advances : Advances before state console next) (ends : Ends console next results ending) :
    Ends before state results ending := by
  cases ends with
  | ok further result => exact .ok (advances.trans further) result
  | failed further => exact .failed (advances.trans further)
  | awaiting further whole => exact .awaiting (advances.trans further) whole

theorem Ends.bind {x : Dialogue α} {f : α → Dialogue β}
    (ends : Ends console state results (x console))
    (rest : ∀ a after next, results a after next → Ends after next results' (f a after)) :
    Ends console state results' ((x >>= f) console) := by
  simp only [Bind.bind, EStateM.bind]
  generalize x console = ending at ends ⊢
  cases ends with
  | ok advances result => exact (rest _ _ _ result).after advances
  | failed advances => exact .failed advances
  | awaiting advances whole => exact .awaiting advances whole

theorem write_ends {line : String} (writes : Writes state line next) :
    Ends console state (fun _ after reached => reached = next ∧ after.input = console.input)
      (Dialogue.write line console) := by
  unfold Dialogue.write Console.write
  cases console.faults.write console.writes with
  | none => exact .ok (.call (.wrote writes) rfl) ⟨rfl, rfl⟩
  | some message => exact .failed (.call (.writeFailed writes message) rfl)

/-- The answer to a request is read. It is taken off the queue. -/
theorem read_ends (kind : InputKind) (prompt : String) :
    Ends console (.asked kind prompt)
      (fun line after reached => reached = .heard kind prompt line ∧
        after.input.length + 1 = console.input.length) (Dialogue.read console) := by
  unfold Dialogue.read Console.read
  cases console.faults.read console.reads with
  | some message => exact .failed (.call (.readFailed kind prompt message) rfl)
  | none =>
    cases queue : console.input with
    | nil =>
      cases console.closed with
      | true => exact .failed (.call (.readClosed kind prompt) rfl)
      | false => exact .awaiting (.refl console _) trivial
    | cons first rest =>
      cases first with
      | ok line => exact .ok (.call (.hear kind prompt line) rfl) ⟨rfl, by simp⟩
      | error message => exact .failed (.call (.readFailed kind prompt message) rfl)

theorem acknowledge_ends :
    Ends console .said (fun _ _ reached => reached = .ready) (Dialogue.acknowledge console) := by
  unfold Dialogue.acknowledge Console.read
  -- Whatever is read, also a failure, counts as the acknowledgement.
  cases console.faults.read console.reads with
  | some message => exact .ok (.call (.acknowledge rfl) rfl) rfl
  | none =>
    cases console.input with
    | nil =>
      cases console.closed with
      | true => exact .ok (.call (.acknowledge rfl) rfl) rfl
      | false => exact .awaiting (.refl console _) trivial
    | cons first rest =>
      cases first with
      | ok line => exact .ok (.call (.acknowledge rfl) rfl) rfl
      | error message => exact .ok (.call (.acknowledge rfl) rfl) rfl

theorem speak_ends (resting : state.Resting) (arguments : List Value) :
    Ends console state (fun _ _ reached => reached.Resting)
      (Native.speak arguments console) := by
  refine (write_ends (.say resting _)).bind ?_
  rintro _ after _ ⟨rfl, -⟩
  refine acknowledge_ends.bind ?_
  rintro _ after _ rfl
  exact .ok (.refl after _) trivial

/-- Only a request for a number can be left without an answer by a line. -/
theorem numeric_of_unanswered {kind : InputKind} {line : String} (unanswered : kind.value? line = none) :
    kind ≠ .string := by
  rintro rfl
  simp [InputKind.value?] at unanswered

/-- Lines are read until one answers. The induction is on the budget, and the queue is never longer. -/
theorem awaitAnswer_ends (kind : InputKind) (prompt : String) (budget : Nat)
    (enough : console.input.length ≤ budget) :
    Ends console (.asked kind prompt) (fun _ _ reached => reached.Resting)
      (Native.awaitAnswer kind (kind.request prompt) budget console) := by
  induction budget generalizing console with
  | zero =>
    have empty : console.input = [] := List.eq_nil_of_length_eq_zero (Nat.le_zero.mp enough)
    -- Nothing can be read from an empty queue, so what stands behind the read is not reached.
    have missing : Ends console (.asked kind prompt) (fun _ _ _ => False) (discard Dialogue.read console) := by
      refine (read_ends kind prompt).bind ?_
      rintro line after _ ⟨-, shorter⟩
      simp [empty] at shorter
    exact missing.bind fun _ _ _ impossible => impossible.elim
  | succ budget ih =>
    refine (read_ends kind prompt).bind ?_
    rintro line after _ ⟨rfl, shorter⟩
    cases answer : kind.value? line with
    | some value => exact .ok (.refl after _) trivial
    | none =>
      refine (write_ends (.complain (numeric_of_unanswered answer) prompt line)).bind ?_
      rintro _ after' _ ⟨rfl, queue⟩
      refine (write_ends (.askAgain kind prompt)).bind ?_
      rintro _ after'' _ ⟨rfl, queue'⟩
      apply ih
      rw [queue', queue]
      omega

theorem inquire_ends (resting : state.Resting) (kind : InputKind) (prompt : String) :
    Ends console state (fun _ _ reached => reached.Resting)
      (Native.inquire kind prompt console) := by
  refine (write_ends (.ask resting kind prompt)).bind ?_
  rintro _ after _ ⟨rfl, -⟩
  exact awaitAnswer_ends kind prompt _ (Nat.le_refl _)

/-- A built-in function holds one exchange. -/
theorem execute_ends (resting : state.Resting) (native : Native) (scope : Scope) :
    Ends console state (fun _ _ reached => reached.Resting)
      (native.execute scope console) := by
  cases native with
  | say => exact speak_ends resting _
  | ask kind => exact inquire_ends resting kind _

/-- A built-in function that fails reports a failure of the console. -/
theorem fault_of_execute {native : Native} {scope : Scope} {fault : RuntimeFault} {after : Console}
    (failed : native.execute scope console = .error (.failed fault) after) :
    fault = .streamClosed ∨ ∃ message, fault = .io message := by
  have resting : State.ready.Resting := trivial
  have ends : Ends console .ready (fun _ _ reached => reached.Resting)
      (native.execute scope console) := execute_ends resting native scope
  rw [failed] at ends
  cases ends with
  | failed advances =>
    obtain ⟨calls, -, path⟩ := advances
    exact path.fault_of_broken trivial

end Dialogues

end Protocol

end Primer
