import Primer.Proofs.Machine.Protocol

/-!
# What a request for a number takes and gives

A request for a number is written, and lines are read until one of them is a number. `Inquiry.script` is
the list of calls that this takes for a queue of lines: it is made from the lines alone, without a
console. The console only decides how far the script is played, because any of the calls may fail.

## Main result

`inquiry_exact`: the number returned is that of the first line that is one, no line behind it is read,
and each line before it is quoted back. If no line is a number all of them are read, and a call that
fails is the last one.

## Proof strategy

`Dialogue.play` makes the calls of a script on a console and stops at the first that fails. The dialogue
of the built-in function is equal to its script, played and followed by its result
(`Inquiry.inquire_eq_play`). What is written and read can then be seen from the script.
-/

namespace Primer

/-! ### Calls on record -/

namespace ConsoleCall

/-- The line that a call puts out. -/
def output? : ConsoleCall → Option String
  | .wrote line => some line
  | _ => none

/-- The line that a call takes off the queue. -/
def input? : ConsoleCall → Option String
  | .read line => some line
  | _ => none

/-- The same call when it fails. -/
def failed (message : String) (call : ConsoleCall) : ConsoleCall :=
  match call.written? with
  | some line => .writeFailed line message
  | none => .readFailed message

theorem output?_failed (message : String) (call : ConsoleCall) : (call.failed message).output? = none := by
  cases call <;> rfl

theorem input?_failed (message : String) (call : ConsoleCall) : (call.failed message).input? = none := by
  cases call <;> rfl

end ConsoleCall

namespace Console

/-- The message with which the next call is to fail, if it is this one. -/
def fault? (console : Console) (call : ConsoleCall) : Option String :=
  match call.written? with
  | some _ => console.faults.write console.writes
  | none => console.faults.read console.reads

/-- The console behind a call. -/
def record (console : Console) (call : ConsoleCall) : Console where
  input := if call.input?.isSome then console.input.tail else console.input
  log := call :: console.log
  writes := if call.written?.isSome then console.writes + 1 else console.writes
  reads := if call.written?.isSome then console.reads else console.reads + 1
  faults := console.faults
  closed := console.closed

/-- The console behind some calls. -/
def recordAll (console : Console) (calls : List ConsoleCall) : Console :=
  calls.foldl record console

/-- None of the calls is to fail if they are made one after another. -/
def Serves (console : Console) : List ConsoleCall → Prop
  | [] => True
  | call :: calls => console.fault? call = none ∧ (console.record call).Serves calls

instance decidableServes (console : Console) : (calls : List ConsoleCall) → Decidable (console.Serves calls)
  | [] => isTrue trivial
  | call :: calls =>
    have := decidableServes (console.record call) calls
    inferInstanceAs (Decidable (_ ∧ _))

variable (console : Console) (calls : List ConsoleCall)

@[simp] theorem recordAll_nil : console.recordAll [] = console := rfl

@[simp] theorem recordAll_cons (call : ConsoleCall) :
    console.recordAll (call :: calls) = (console.record call).recordAll calls := rfl

theorem recordAll_append (others : List ConsoleCall) :
    console.recordAll (calls ++ others) = (console.recordAll calls).recordAll others :=
  List.foldl_append

theorem log_recordAll : (console.recordAll calls).log = calls.reverse ++ console.log := by
  induction calls generalizing console with
  | nil => rfl
  | cons call calls ih => simp [ih, record]

theorem output_recordAll :
    (console.recordAll calls).output = console.output ++ calls.filterMap ConsoleCall.output? := by
  have shown (console : Console) : console.output = console.log.reverse.filterMap ConsoleCall.output? := rfl
  simp [shown, log_recordAll]

/-- The lines that are read are taken off the queue. -/
theorem input_recordAll {left : List (Except String String)}
    (queue : console.input = (calls.filterMap ConsoleCall.input?).map .ok ++ left) :
    (console.recordAll calls).input = left := by
  induction calls generalizing console with
  | nil => exact queue
  | cons call calls ih =>
    apply ih
    cases taken : call.input? with
    | none => simpa [record, taken] using queue
    | some line => simp [record, taken, queue]

end Console

/-! ### Playing a script -/

namespace Dialogue

variable {α β : Type}

/-- Makes the calls and goes on, or ends with the failure of the first call that fails. -/
def play : List ConsoleCall → Dialogue α → Dialogue α
  | [], rest => rest
  | call :: calls, rest => fun console =>
    match console.fault? call with
    | some message => .error (.failed (.io message)) (console.record (call.failed message))
    | none => play calls rest (console.record call)

theorem play_cons (call : ConsoleCall) (calls : List ConsoleCall) (rest : Dialogue α)
    (console : Console) :
    play (call :: calls) rest console =
      match console.fault? call with
      | some message => .error (.failed (.io message)) (console.record (call.failed message))
      | none => play calls rest (console.record call) :=
  rfl

theorem play_append (calls others : List ConsoleCall) (rest : Dialogue α) :
    play (calls ++ others) rest = play calls (play others rest) := by
  induction calls with
  | nil => rfl
  | cons call calls ih =>
    funext console
    rw [List.cons_append, play_cons, play_cons, ih]

theorem play_bind (calls : List ConsoleCall) (rest : Dialogue α) (f : α → Dialogue β) :
    play calls rest >>= f = play calls (rest >>= f) := by
  induction calls with
  | nil => rfl
  | cons call calls ih =>
    funext console
    rw [play_cons, ← ih]
    simp only [Bind.bind, EStateM.bind, play_cons]
    cases console.fault? call <;> rfl

section Outcomes

variable {console : Console} {calls : List ConsoleCall} {rest : Dialogue α}

/-- What comes behind the calls matters only on the console behind them. -/
theorem play_congr {rest' : Dialogue α}
    (same : rest (console.recordAll calls) = rest' (console.recordAll calls)) :
    play calls rest console = play calls rest' console := by
  induction calls generalizing console with
  | nil => exact same
  | cons call calls ih =>
    rw [play_cons, play_cons]
    cases console.fault? call with
    | some message => rfl
    | none => exact ih same

theorem bind_congr {x y : Dialogue α} (same : x console = y console) (f : α → Dialogue β) :
    (x >>= f) console = (y >>= f) console := by
  simp only [Bind.bind, EStateM.bind, same]

theorem play_of_serves (serves : console.Serves calls) :
    play calls rest console = rest (console.recordAll calls) := by
  induction calls generalizing console with
  | nil => rfl
  | cons call calls ih =>
    obtain ⟨succeeds, serves⟩ := serves
    rw [play_cons, succeeds]
    exact ih serves

/-- The first call that fails is the last one. -/
theorem play_of_fault {earlier later : List ConsoleCall} {call : ConsoleCall} {message : String}
    (split : calls = earlier ++ call :: later) (serves : console.Serves earlier)
    (fails : (console.recordAll earlier).fault? call = some message) :
    play calls rest console
      = .error (.failed (.io message)) (console.recordAll (earlier ++ [call.failed message])) := by
  rw [split, play_append, play_of_serves serves, play_cons, fails, Console.recordAll_append]
  rfl

end Outcomes

/-! ### The calls of a dialogue -/

theorem write_eq_play (line : String) : Dialogue.write line = play [.wrote line] (pure ()) := by
  funext console
  simp only [Dialogue.write, Console.write, play_cons, Console.fault?, ConsoleCall.written?]
  cases console.faults.write console.writes <;> rfl

variable {console : Console}

theorem read_eq_play {line : String} {left : List (Except String String)}
    (queue : console.input = .ok line :: left) :
    Dialogue.read console = play [.read line] (pure line) console := by
  obtain ⟨input, log, writes, reads, faults, closed⟩ := console
  subst queue
  simp only [Dialogue.read, Console.read, play_cons, Console.fault?, ConsoleCall.written?]
  cases faults.read reads <;> rfl

/-- The end of the stream is read like a line, but the dialogue ends there. -/
theorem read_eq_play_closed (queue : console.input = []) (closed : console.closed = true) :
    Dialogue.read console = play [.readClosed] (throw (.failed .streamClosed)) console := by
  obtain ⟨input, log, writes, reads, faults, closed'⟩ := console
  subst queue closed
  simp only [Dialogue.read, Console.read, play_cons, Console.fault?, ConsoleCall.written?]
  cases faults.read reads <;> rfl

end Dialogue

/-! ### The script of a request -/

/-- The number that a line is, with or without white space around it, if one of the kind is asked for. -/
def InputKind.number? (kind : InputKind) (line : String) : Option Number :=
  match kind with
  | .int => (Decimal.readInt64? (Text.trim line).toList).map .int
  | .float => (Decimal.readFloat? (Text.trim line).toList).map .float
  | .string => none

theorem InputKind.value?_eq {kind : InputKind} (numeric : kind ≠ .string) (line : String) :
    kind.value? line = (kind.number? line).map .number := by
  cases kind with
  | string => exact absurd rfl numeric
  | int | float => simp [InputKind.value?, InputKind.number?, Function.comp_def]

namespace Inquiry

variable (kind : InputKind) (request : String)

/-- A line that is no number is read and quoted back, and the request is repeated. -/
def refusal (line : String) : List ConsoleCall :=
  [.read line, .wrote (kind.complaint line), .wrote request]

/-- The calls behind a request, for a queue of lines. -/
def replies : List String → List ConsoleCall
  | [] => [.readClosed]
  | line :: lines =>
    if (kind.number? line).isSome then [.read line] else refusal kind request line ++ replies lines

/-- All the calls of a request, for a queue of lines. -/
def script (lines : List String) : List ConsoleCall :=
  .wrote request :: replies kind request lines

/-- What a request comes to when its calls are made. -/
def outcome (lines : List String) : Dialogue Value :=
  match lines.findSome? kind.number? with
  | some number => pure (.number number)
  | none => throw (.failed .streamClosed)

section Script

variable {kind request}

/-- The lines are read in order, and no other. -/
theorem reads_script (lines : List String) :
    (script kind request lines).filterMap ConsoleCall.input? <+: lines := by
  show (replies kind request lines).filterMap ConsoleCall.input? <+: lines
  induction lines with
  | nil => exact List.nil_prefix
  | cons line lines ih =>
    rw [replies]
    split
    · simp [ConsoleCall.input?]
    · simpa [refusal, List.filterMap_cons, ConsoleCall.input?] using ih

section Refused

variable {refused : List String} (none : ∀ line ∈ refused, kind.number? line = .none)
include none

/-- The lines before the first number are refused one after another. -/
theorem script_append (lines : List String) : script kind request (refused ++ lines)
    = .wrote request :: (refused.flatMap (refusal kind request) ++ replies kind request lines) := by
  rw [script]
  congr 1
  induction refused with
  | nil => rfl
  | cons line refused ih =>
    obtain ⟨first, others⟩ := List.forall_mem_cons.mp none
    simp [replies, first, ih others]

theorem output_script (lines : List String) :
    (script kind request (refused ++ lines)).filterMap ConsoleCall.output?
      = request :: (refused.flatMap fun line => [kind.complaint line, request])
        ++ (replies kind request lines).filterMap ConsoleCall.output? := by
  simp [script_append none, List.filterMap_cons, List.filterMap_flatMap, refusal, ConsoleCall.output?]

theorem input_script (lines : List String) :
    (script kind request (refused ++ lines)).filterMap ConsoleCall.input?
      = refused ++ (replies kind request lines).filterMap ConsoleCall.input? := by
  simp [script_append none, List.filterMap_cons, List.filterMap_flatMap, refusal, ConsoleCall.input?]

end Refused

end Script

variable {kind} {console : Console} {lines : List String}

/-- Lines are read until one is a number. The induction is on the queue. -/
theorem awaitAnswer_eq_play (numeric : kind ≠ .string) {budget : Nat}
    (queue : console.input = lines.map .ok) (closed : console.closed = true)
    (enough : lines.length ≤ budget) :
    Native.awaitAnswer kind request budget console
      = Dialogue.play (replies kind request lines) (outcome kind lines) console := by
  induction lines generalizing console budget with
  | nil =>
    have missing := Dialogue.read_eq_play_closed queue closed
    cases budget with
    | zero =>
      -- What stands behind the read is not reached.
      show (Functor.map _ Dialogue.read >>= _) console = _
      rw [bind_map_left, Dialogue.bind_congr missing, Dialogue.play_bind]
      rfl
    | succ budget =>
      show (Dialogue.read >>= _) console = _
      rw [Dialogue.bind_congr missing, Dialogue.play_bind]
      rfl
  | cons line lines ih =>
    obtain ⟨budget, rfl⟩ := Nat.exists_eq_add_of_le' (Nat.one_le_of_lt enough)
    show (Dialogue.read >>= _) console = _
    rw [Dialogue.bind_congr (Dialogue.read_eq_play queue), Dialogue.play_bind, pure_bind]
    have value := kind.value?_eq numeric line
    cases found : kind.number? line with
    | some number =>
      have due : outcome kind (line :: lines) = pure (.number number) := by simp [outcome, found]
      simp only [replies, found, due, value]
      rfl
    | none =>
      have due : outcome kind (line :: lines) = outcome kind lines := by simp [outcome, found]
      simp only [replies, found, due, value, Option.map_none, Option.isSome_none, Bool.false_eq_true,
        if_false, Dialogue.write_eq_play, Dialogue.play_bind, pure_bind, Dialogue.play_append]
      show Dialogue.play (refusal kind request line) (Native.awaitAnswer kind request budget) console = _
      apply Dialogue.play_congr
      -- The refusal takes one line, so that the induction is about the others.
      have left : (console.recordAll (refusal kind request line)).input = lines.map .ok :=
        Console.input_recordAll console _ queue
      exact ih left closed (Nat.le_of_succ_le_succ enough)

theorem inquire_eq_play (numeric : kind ≠ .string) (prompt : String)
    (queue : console.input = lines.map .ok) (closed : console.closed = true) :
    Native.inquire kind prompt console
      = Dialogue.play (script kind (kind.request prompt) lines) (outcome kind lines) console := by
  show (Dialogue.write (kind.request prompt) >>= _) console = _
  rw [Dialogue.write_eq_play, Dialogue.play_bind, pure_bind, script, ← List.singleton_append,
    Dialogue.play_append]
  apply Dialogue.play_congr
  have same : (console.recordAll [.wrote (kind.request prompt)]).input = lines.map .ok := queue
  -- The turns allowed for are as many as the lines that are queued.
  show Native.awaitAnswer kind _ _ _ = _
  exact awaitAnswer_eq_play _ numeric same closed (by rw [same, List.length_map])

/-- How a request for a number ends on a console with a queue of lines. -/
structure Exact (kind : InputKind) (request : String) (lines : List String) (console : Console)
    (result : EStateM.Result Interruption Console Value) : Prop where
  /-- The first number is returned, and the lines behind it are left. -/
  answered : ∀ refused line later number, lines = refused ++ line :: later →
    (∀ earlier ∈ refused, kind.number? earlier = none) → kind.number? line = some number →
    console.Serves (script kind request lines) →
    ∃ after, result = .ok (.number number) after ∧
      after.log = (script kind request lines).reverse ++ console.log ∧
      after.input = later.map .ok ∧
      after.output = console.output ++
        request :: refused.flatMap fun earlier => [kind.complaint earlier, request]
  /-- Without a number all lines are read. -/
  exhausted : (∀ line ∈ lines, kind.number? line = none) →
    console.Serves (script kind request lines) →
    ∃ after, result = .error (.failed .streamClosed) after ∧
      after.log = (script kind request lines).reverse ++ console.log ∧
      after.input = [] ∧
      after.output = console.output ++
        request :: lines.flatMap fun line => [kind.complaint line, request]
  /-- The first call that fails is the last one. -/
  interrupted : ∀ earlier call later message, script kind request lines = earlier ++ call :: later →
    console.Serves earlier → (console.recordAll earlier).fault? call = some message →
    ∃ after left, result = .error (.failed (.io message)) after ∧
      after.log = call.failed message :: (earlier.reverse ++ console.log) ∧
      lines = earlier.filterMap ConsoleCall.input? ++ left ∧ after.input = left.map .ok ∧
      after.output = console.output ++ earlier.filterMap ConsoleCall.output?

end Inquiry

open Inquiry

/-- A request for a number takes the lines up to the first number and makes the calls of its script, up to
the first that fails.

- `numeric`: a request for a text takes the first line whatever it is.
- `bound`: the prompt is the argument of the call, a value of any kind.
- `closed`: no line comes behind those in the queue, so that the stream ends with them.

Which calls fail is left open: the faults of the console are arbitrary, and so is what went on before. -/
theorem inquiry_exact {kind : InputKind} (numeric : kind ≠ .string) {scope : Scope} {prompt : Value}
    (bound : scope.own? (Native.argumentName 0) = some prompt) {console : Console} {lines : List String}
    (queue : console.input = lines.map .ok) (closed : console.closed = true) :
    Exact kind (kind.request prompt.text) lines console ((Native.ask kind).execute scope console) := by
  have plays : (Native.ask kind).execute scope console
      = Dialogue.play (script kind (kind.request prompt.text) lines) (outcome kind lines) console := by
    rw [← inquire_eq_play numeric prompt.text queue closed, Native.execute, bound]
    rfl
  rw [plays]
  generalize kind.request prompt.text = request
  constructor
  case answered =>
    rintro refused line later number rfl none found serves
    have last : replies kind request (line :: later) = [.read line] := by simp [replies, found]
    have due : outcome kind (refused ++ line :: later) = pure (.number number) := by
      simp [outcome, List.findSome?_append, List.findSome?_eq_none_iff.mpr none, found]
    rw [Dialogue.play_of_serves serves, due]
    refine ⟨_, rfl, Console.log_recordAll _ _, Console.input_recordAll _ _ ?_, ?_⟩
    · simp [input_script none, last, queue, ConsoleCall.input?]
    · rw [Console.output_recordAll, output_script none, last]
      simp [ConsoleCall.output?]
  case exhausted =>
    intro none serves
    have due : outcome kind lines = throw (.failed .streamClosed) := by
      simp [outcome, List.findSome?_eq_none_iff.mpr none]
    -- The last call reads the end of the stream.
    have outputs : (script kind request (lines ++ [])).filterMap ConsoleCall.output? = _ :=
      output_script none []
    have inputs : (script kind request (lines ++ [])).filterMap ConsoleCall.input? = _ :=
      input_script none []
    rw [List.append_nil] at outputs inputs
    rw [Dialogue.play_of_serves serves, due]
    refine ⟨_, rfl, Console.log_recordAll _ _, Console.input_recordAll _ _ ?_, ?_⟩
    · simp [inputs, queue, replies, ConsoleCall.input?]
    · rw [Console.output_recordAll, outputs]
      simp [replies, ConsoleCall.output?]
  case interrupted =>
    intro earlier call later message split serves fails
    have reads : earlier.filterMap ConsoleCall.input? <+: lines := by
      have all : (script kind request lines).filterMap ConsoleCall.input? <+: lines := reads_script lines
      rw [split, List.filterMap_append] at all
      exact (List.prefix_append _ _).trans all
    -- The call that fails takes no line and puts none out.
    obtain ⟨left, rfl⟩ := reads
    rw [Dialogue.play_of_fault split serves fails]
    refine ⟨_, left, rfl, ?_, rfl, Console.input_recordAll _ _ ?_, ?_⟩
    · simp [Console.log_recordAll]
    · simp [queue, ConsoleCall.input?_failed]
    · simp [Console.output_recordAll, ConsoleCall.output?_failed]

/-- The second of three lines is a number: it is returned, or the call that reads it fails. -/
theorem inquiry_exact_second_line :
    let scope := Native.callScope 0 [.string "Age?"]
    let console (faults : Faults) := Console.ofInput [.ok "abc", .ok " 42\t", .ok "x"] faults true
    let failing : Faults := ⟨fun _ => none, fun number => if number = 1 then some "gone" else none⟩
    let written := ["INPUT_REQUEST:int:Age?", "Invalid integer: abc", "INPUT_REQUEST:int:Age?"]
    (∃ after, (Native.ask .int).execute scope (console .none) = .ok (.number (.int 42)) after ∧
      after.input = [.ok "x"] ∧ after.output = written) ∧
    ∃ after, (Native.ask .int).execute scope (console failing) = .error (.failed (.io "gone")) after ∧
      after.input = [.ok " 42\t", .ok "x"] ∧ after.output = written := by
  intro scope console failing written
  have bound : scope.own? (Native.argumentName 0) = some (.string "Age?") := rfl
  have law (faults : Faults) : Exact .int (InputKind.int.request "Age?") ["abc", " 42\t", "x"]
      (console faults) ((Native.ask .int).execute scope (console faults)) :=
    inquiry_exact (by decide) bound rfl rfl
  constructor
  · obtain ⟨after, result, -, left, output⟩ := (law .none).answered ["abc"] " 42\t" ["x"] (.int 42) rfl
      (by decide +kernel) (by decide +kernel) (by decide +kernel)
    exact ⟨after, result, left, output⟩
  · obtain ⟨after, left, result, -, split, rest, output⟩ := (law failing).interrupted
      [.wrote (InputKind.int.request "Age?"), .read "abc", .wrote "Invalid integer: abc",
        .wrote (InputKind.int.request "Age?")] (.read " 42\t") [] "gone"
      (by decide +kernel) (by decide +kernel) rfl
    obtain rfl : left = [" 42\t", "x"] := by
      simpa [List.filterMap_cons, ConsoleCall.input?, eq_comm] using split
    exact ⟨after, result, rest, output⟩

end Primer
