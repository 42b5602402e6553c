import Primer.Source.Excerpt

/-!
# Diagnostics

A diagnostic says what went wrong, and if it can, where, under which calls, and what to do about it.
Its plain form is text for a log or a terminal without colours.
-/

namespace Primer

/-- The place in a source that a diagnostic is about. -/
structure Location where
  source : String
  path : String
  span : Span
  label : Option String

/-- One line of a trace: what was running, and the number of the line it had reached. -/
structure TraceLine where
  name : String
  line : Nat

structure Diagnostic where
  title : String
  text : String
  location : Option Location
  /-- The calls under way, the outermost first. -/
  trace : List TraceLine
  hint : Option String

namespace Diagnostic

def plainTrace (trace : List TraceLine) : String :=
  if trace.isEmpty then ""
  else
    "Execution trace:\n" ++ String.join
      (trace.map fun entry => "  Line " ++ toString entry.line ++ ", in " ++ entry.name ++ "\n")

def plainLocation (location : Location) : String :=
  let position := Position.resolve location.source location.span.start
  "\n\nWhere: File '" ++ location.path ++ "', line " ++ toString (position.line + 1) ++ ", column "
    ++ toString (position.column + 1) ++ "\n\n" ++ Source.excerpt location.source location.span

/-- Trace, title and text, place with excerpt, and hint, in this order. -/
def plain (diagnostic : Diagnostic) : String :=
  plainTrace diagnostic.trace ++ diagnostic.title ++ ": " ++ diagnostic.text
    ++ (match diagnostic.location with
        | some location => plainLocation location
        | none => "")
    ++ (match diagnostic.hint with
        | some hint => "\n\nHint: " ++ hint
        | none => "")

end Diagnostic

end Primer
