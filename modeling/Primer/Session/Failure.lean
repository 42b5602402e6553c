import Primer.Machine.RuntimeError
import Primer.Program.ParseError
import Primer.Report.Rich
import Primer.Session.FileFault

/-!
# Failures of a session

Everything that can keep a source from giving a value, from a file that is not there to a program that
fails while it runs, and the diagnostic each is reported with.
-/

namespace Primer

/-- Why a session has no value to show. A failure in a program keeps its source, to quote it. -/
inductive Failure where
  | parse (path source : String) (error : ParseError)
  | runtime (path source : String) (error : RuntimeError)
  | extension (path : String)
  | file (fault : FileFault)

/-- The calls under way at an error, the outermost first. Each has reached the line of its call of the
next, and the innermost the line of the error. The program alone is no trace. -/
def RuntimeError.trace (source : String) (error : RuntimeError) : List TraceLine :=
  if error.frames.length ≤ 1 then []
  else
    let reached := error.span :: error.frames.map fun frame => frame.entry.getD error.span
    ((error.frames.zip reached).map fun (frame, span) =>
      ⟨frame.name, (Position.resolve source span.start).line + 1⟩).reverse

namespace Failure

/-- The failure in one phrase. -/
def summary : Failure → String
  | .parse _ _ _ => "failed to parse source code"
  | .runtime _ _ _ => "program failed at runtime"
  | .extension path =>
    "`" ++ path ++ "` is not a Laurel source file, expected the `.lrl` extension"
  | .file _ => "IO operation failed"

def diagnostic (failure : Failure) : Diagnostic :=
  match failure with
  | .parse path source error =>
    { title := error.fault.title
      text := error.fault.message
      location := some ⟨source, path, error.span, none⟩
      trace := []
      hint := some error.fault.hint }
  | .runtime path source error =>
    { title := "Runtime Error"
      text := error.fault.message
      location := some ⟨source, path, error.span, none⟩
      trace := error.trace source
      hint := some error.fault.hint }
  | .extension _ =>
    { title := "Invalid file"
      text := failure.summary
      location := none
      trace := []
      hint := none }
  | .file fault =>
    { title := "Standard IO error"
      text := fault.message
      location := none
      trace := []
      hint := none }

/-- The plain report. -/
def report (failure : Failure) : String :=
  failure.diagnostic.plain

/-- The rich report, with an empty line below it. -/
def richReport (failure : Failure) : List Stroke :=
  failure.diagnostic.rich ++ [.text "\n"]

end Failure

end Primer
