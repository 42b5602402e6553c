/-!
# The console

A console takes lines and gives lines. Every call is put on record, also the ones that fail, so the
conversation of a run can be read off the console it leaves. Failures come from a schedule by the
number of the call, or from a line that cannot be read as text.

A console is closed when its queue holds all the lines that will ever come. Reading from an open
console whose queue is empty has no answer yet.
-/

namespace Primer

/-- One call of the console and its outcome. -/
inductive ConsoleCall where
  | wrote (line : String)
  | writeFailed (line message : String)
  | read (line : String)
  | readClosed
  | readFailed (message : String)
  deriving DecidableEq, Repr

/-- Which calls fail, by their number among the calls of their kind, and with what message. -/
structure Faults where
  write : Nat → Option String
  read : Nat → Option String

def Faults.none : Faults :=
  ⟨fun _ => .none, fun _ => .none⟩

structure Console where
  /-- The lines to come. One that is no text fails when it is read, with a message. -/
  input : List (Except String String)
  /-- The calls so far, the latest first. -/
  log : List ConsoleCall
  /-- The number of lines asked to be written, also in vain. -/
  writes : Nat
  /-- The number of attempts to read a line. -/
  reads : Nat
  faults : Faults
  /-- No line will come but the ones in the queue. -/
  closed : Bool

namespace Console

/-- A fresh console with its queue of lines. -/
def ofInput (input : List (Except String String)) (faults : Faults) (closed : Bool) : Console :=
  ⟨input, [], 0, 0, faults, closed⟩

def push (console : Console) (lines : List String) : Console :=
  { console with input := console.input ++ lines.map .ok }

/-- The lines written, in order. -/
def output (console : Console) : List String :=
  console.log.reverse.filterMap fun
    | .wrote line => some line
    | _ => none

/-- Writes a line, or fails with a message. -/
def write (console : Console) (line : String) : Except String Unit × Console :=
  match console.faults.write console.writes with
  | some message =>
    (.error message,
      { console with
        writes := console.writes + 1
        log := .writeFailed line message :: console.log })
  | none =>
    (.ok (), { console with writes := console.writes + 1, log := .wrote line :: console.log })

/-- What reading a line gives. -/
inductive Reading where
  | line (text : String)
  | closed
  | failed (message : String)
  | pending
  deriving DecidableEq, Repr

/-- Reads a line. A failure on schedule leaves the queue alone; a line that is no text is gone. -/
def read (console : Console) : Reading × Console :=
  let counted := { console with reads := console.reads + 1 }
  match console.faults.read console.reads with
  | some message => (.failed message, { counted with log := .readFailed message :: console.log })
  | none =>
    match console.input with
    | .ok line :: rest =>
      (.line line, { counted with input := rest, log := .read line :: console.log })
    | .error message :: rest =>
      (.failed message, { counted with input := rest, log := .readFailed message :: console.log })
    | [] =>
      if console.closed then (.closed, { counted with log := .readClosed :: console.log })
      else (.pending, console)

end Console

end Primer
