import Primer.Program.Outline
import Primer.Session.Folder
import Primer.Session.Run
import Primer.Session.Stream

/-!
# The command line

A command is carried out on a folder of files and a stream of standard input. What it writes and the
code it exits with are values here; the program's entry point only moves them in and out.
-/

namespace Primer

inductive Command where
  | run (path : String) (rich : Bool)
  | stdin (rich : Bool)
  | tokens (path : String)
  | tree (path : String) (outlined : Bool)
  deriving DecidableEq, Repr

/-- What the surroundings decide: whether to colour, and how the time a run took is written. -/
structure Surroundings where
  colouring : Colouring
  elapsed : String

/-- What a command leaves behind. -/
structure Output where
  code : Nat
  stdout : String
  stderr : String

namespace Command

/-- Whether a flag is among the arguments of a command, and the other arguments. Behind two dashes
there are no flags. -/
def splitFlag (flag : Option String) : List String → Bool × List String
  | [] => (false, [])
  | argument :: rest =>
    if argument = "--" then (false, rest)
    else
      let (found, others) := splitFlag flag rest
      if some argument = flag then (true, others) else (found, argument :: others)

def ofArgs? : List String → Option Command
  | "run" :: rest =>
    match splitFlag (some "--rich") rest with
    | (rich, [path]) => some (.run path rich)
    | _ => none
  | "stdin" :: rest =>
    match splitFlag (some "--rich") rest with
    | (rich, []) => some (.stdin rich)
    | _ => none
  | "tokens" :: rest =>
    match splitFlag none rest with
    | (_, [path]) => some (.tokens path)
    | _ => none
  | "ast" :: rest =>
    match splitFlag (some "--debug") rest with
    | (outlined, [path]) => some (.tree path outlined)
    | _ => none
  | _ => none

end Command

namespace CommandLine

/-- The name of a program that arrives on standard input. -/
def stdinPath : String :=
  "<stdin>"

def nothingToRun : String :=
  "No code provided.\n"

/-- A time in milliseconds as seconds with two places. -/
def elapsedText (milliseconds : Nat) : String :=
  let hundredths := (milliseconds + 5) / 10
  let places := hundredths % 100
  toString (hundredths / 100) ++ (if places < 10 then ".0" else ".") ++ toString places ++ "s"

/-- A status word, aligned to the right, and what it is about. -/
def status (ink : Ink) (word text : String) : List Stroke :=
  [.dip ink, .text (String.ofList (Source.rightAligned 11 word.toList)), .rinse,
   .text (" " ++ text ++ "\n")]

def running (path : String) : List Stroke :=
  status .boldBrightGreen "Running" path

def finished (surroundings : Surroundings) : List Stroke :=
  status .boldBrightGreen "Finished" ("in " ++ surroundings.elapsed)

def failed (surroundings : Surroundings) : List Stroke :=
  status .boldBrightRed "Failed" ("after " ++ surroundings.elapsed)

/-- The report of a failure. -/
def report (surroundings : Surroundings) (rich : Bool) (failure : Failure) : String :=
  if rich then Stroke.writeAll surroundings.colouring failure.richReport
  else failure.report ++ "\n"

def written (lines : List String) : String :=
  String.join (lines.map (· ++ "\n"))

/-- A value as it is shown behind the output of its program. Null is not shown. -/
def shownValue (value : Value) : String :=
  if value.same .null then "" else value.text ++ "\n"

/-- One line of a token listing. -/
def tokenLine (lexeme : Lexeme) : String :=
  lexeme.span.text ++ "\t" ++ lexeme.token.summary
    ++ (match lexeme.token with
        | .newline | .endOfInput => ""
        | token => "\t`" ++ token.literal ++ "`")

/-- The output of a command that only looks at a source. -/
def inspected (surroundings : Surroundings) (shown : Except Failure String) : Output :=
  match shown with
  | .ok text => ⟨0, text, ""⟩
  | .error failure => ⟨1, "", report surroundings false failure⟩

/-- Lists the tokens of a source. -/
def listTokens (path : String) (source : Except Failure String) : Except Failure String := do
  let lexemes ← lexSource path (← source)
  return written (lexemes.map tokenLine)

/-- Shows the program of a source, as source text or in outline. -/
def showProgram (path : String) (outlined : Bool) (source : Except Failure String) :
    Except Failure String := do
  let program ← parseSource path (← source)
  return (if outlined then program.outline.render 0 else program.text) ++ "\n"

/-- Runs a source in a fresh world. -/
def runFresh (budget : Nat) (path source : String) (console : Console) : Finish × Console :=
  let (finish, world) := run budget path source 0 (.ofConsole console)
  (finish, world.console)

/-- A finished run of a file: its status and, if it failed, a report. -/
def afterFile (surroundings : Surroundings) (rich : Bool) : Finish → Option (Nat × String)
  | .value _ => some (0, Stroke.writeAll surroundings.colouring (finished surroundings))
  | .failure failure =>
    some (1, Stroke.writeAll surroundings.colouring (failed surroundings)
      ++ report surroundings rich failure)
  | _ => none

/-- Runs a file. -/
def runFile (budget : Nat) (surroundings : Surroundings) (path : String) (rich : Bool)
    (source : Except Failure String) (console : Console) : Option Output :=
  let (finish, console) :=
    match source with
    | .ok source => runFresh budget path source console
    | .error failure => (.failure failure, console)
  (afterFile surroundings rich finish).map fun (code, closing) =>
    ⟨code, written console.output,
      Stroke.writeAll surroundings.colouring (running path) ++ closing⟩

/-- A finished run from standard input: the code, what is written behind its output, and the report
if it failed. -/
def afterStdin (surroundings : Surroundings) (rich : Bool) :
    Finish → Option (Nat × String × String)
  | .value value => some (0, shownValue value, "")
  | .failure failure => some (1, "", report surroundings rich failure)
  | _ => none

/-- Runs the program on standard input, which finds its own input behind it. -/
def runStdin (budget : Nat) (surroundings : Surroundings) (rich : Bool) (stdin : List UInt8) :
    Option Output :=
  match Stream.readProgram stdin with
  | (.error fault, _) => some ⟨1, "", report surroundings rich (.file fault)⟩
  | (.ok source, rest) =>
    if (Text.trim source).isEmpty then some ⟨0, nothingToRun, ""⟩
    else
      let (finish, console) :=
        runFresh budget stdinPath source (.ofInput (Stream.inputLines rest) .none true)
      (afterStdin surroundings rich finish).map fun (code, shown, report) =>
        ⟨code, written console.output ++ shown, report⟩

/-- Carries out a command, unless its budget is spent before. -/
def execute (budget : Nat) (surroundings : Surroundings) (folder : Folder) (stdin : List UInt8) :
    Command → Option Output
  | .run path rich =>
    runFile budget surroundings path rich (readSource folder path)
      (.ofInput (Stream.inputLines stdin) .none true)
  | .stdin rich => runStdin budget surroundings rich stdin
  | .tokens path =>
    some (inspected surroundings (listTokens path (readSource folder path)))
  | .tree path outlined =>
    some (inspected surroundings (showProgram path outlined (readSource folder path)))

end CommandLine

end Primer
