import Primer.Session.CommandLine

/-!
# Entry point

Moves bytes between the system and the commands of `CommandLine`. A program is run on the input lines
that have arrived; when it asks for another one, that line is read and the run is repeated with it.
Runs are deterministic, so a repeated run says again what has been said, and only what is new is
written.
-/

namespace Primer

namespace Entry

/-- The way the system's refusal to read a file is reported. -/
def fileFault : IO.Error → FileFault
  | .noFileOrDirectory _ _ _ => .notFound
  | .permissionDenied _ _ _ => .permissionDenied
  | .alreadyExists _ _ _ => .alreadyExists
  | .invalidArgument _ _ _ => .invalidInput
  | .timeExpired _ _ => .timedOut
  | .interrupted _ _ _ => .interrupted
  | .unexpectedEof => .unexpectedEnd
  | .inappropriateType _ code _ => if code = 21 then .isADirectory else .notADirectory
  | _ => .other

def readSourceFile (path : String) : IO (Except Failure String) := do
  let read ←
    try
      let bytes ← IO.FS.readBinFile path
      pure (.ok bytes.toList)
    catch error => pure (.error (fileFault error))
  return sourceText path read

/-- The next line of standard input with its line feed, empty at the end of the stream. -/
partial def readLineBytes (input : IO.FS.Stream) (read : List UInt8) : IO (List UInt8) := do
  match (← input.read 1).toList with
  | byte :: _ =>
    if byte = 10 then return (byte :: read).reverse else readLineBytes input (byte :: read)
  | [] => return read.reverse

/-- The lines of standard input up to the end of a program. -/
partial def readProgramBytes (input : IO.FS.Stream) (read : List UInt8) : IO (List UInt8) := do
  let line ← readLineBytes input []
  let read := read ++ line
  if line.isEmpty || Stream.endsProgram line then return read else readProgramBytes input read

/-- The budget of a first run. -/
def firstBudget : Nat :=
  16777216

/-- Runs a source on the input that has come, of which `shown` lines of output are already written. -/
partial def converse (path source : String) (budget shown : Nat)
    (lines : List (Except String String)) (closed : Bool) : IO Finish := do
  let (finish, console) :=
    CommandLine.runFresh budget path source (.ofInput lines .none closed)
  let output := console.output
  let stdout ← IO.getStdout
  stdout.putStr (CommandLine.written (output.drop shown))
  stdout.flush
  match finish with
  | .awaitingInput =>
    let line ← readLineBytes (← IO.getStdin) []
    if line.isEmpty then converse path source budget output.length lines true
    else converse path source budget output.length (lines ++ [Stream.inputLine line]) false
  | .outOfBudget => converse path source (2 * budget) output.length lines closed
  | finish => return finish

def colouring : IO Colouring := do
  match ← IO.getEnv "FORCE_COLOR" with
  | some value => return if value.isEmpty then .without else .ansi
  | none => return .without

def putError (text : String) : IO Unit := do
  let stderr ← IO.getStderr
  stderr.putStr text
  stderr.flush

def putOutput (output : Output) : IO UInt32 := do
  let stdout ← IO.getStdout
  stdout.putStr output.stdout
  stdout.flush
  putError output.stderr
  return output.code.toUInt32

def runFile (path : String) (rich : Bool) : IO UInt32 := do
  let colouring ← colouring
  putError (Stroke.writeAll colouring (CommandLine.running path))
  let start ← IO.monoMsNow
  let finish ←
    match ← readSourceFile path with
    | .ok source => converse path source firstBudget 0 [] false
    | .error failure => pure (.failure failure)
  let elapsed := (← IO.monoMsNow) - start
  let surroundings : Surroundings := ⟨colouring, CommandLine.elapsedText elapsed⟩
  match CommandLine.afterFile surroundings rich finish with
  | some (code, closing) =>
    putError closing
    return code.toUInt32
  | none => return 1

def runStdin (rich : Bool) : IO UInt32 := do
  let surroundings : Surroundings := ⟨← colouring, ""⟩
  match Stream.readProgram (← readProgramBytes (← IO.getStdin) []) with
  | (.error fault, _) =>
    putOutput ⟨1, "", CommandLine.report surroundings rich (.file fault)⟩
  | (.ok source, _) =>
    if (Text.trim source).isEmpty then putOutput ⟨0, CommandLine.nothingToRun, ""⟩
    else
      let finish ← converse CommandLine.stdinPath source firstBudget 0 [] false
      match CommandLine.afterStdin surroundings rich finish with
      | some (code, shown, report) => putOutput ⟨code, shown, report⟩
      | none => return 1

def usage : String :=
  "usage: run PATH [--rich] | stdin [--rich] | tokens PATH | ast PATH [--debug]\n"

def carryOut : Command → IO UInt32
  | .run path rich => runFile path rich
  | .stdin rich => runStdin rich
  | .tokens path => do
    let source ← readSourceFile path
    putOutput (CommandLine.inspected ⟨.without, ""⟩ (CommandLine.listTokens path source))
  | .tree path outlined => do
    let source ← readSourceFile path
    putOutput (CommandLine.inspected ⟨.without, ""⟩ (CommandLine.showProgram path outlined source))

end Entry

end Primer

def main (args : List String) : IO UInt32 := do
  match Primer.Command.ofArgs? args with
  | some command => Primer.Entry.carryOut command
  | none =>
    Primer.Entry.putError Primer.Entry.usage
    return 2
