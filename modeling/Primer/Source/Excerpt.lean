import Primer.Decimal.Shortest
import Primer.Source.Position
import Primer.Source.Span

/-!
# Excerpts

The lines that a span touches, numbered, with carets under the characters it covers. A span that
covers no character of its first line still gets one caret there, so that every excerpt points
somewhere.
-/

namespace Primer

namespace Source

/-- The lines of a text, which a line feed separates. There is always at least one. -/
def lines : List Char → List (List Char)
  | [] => [[]]
  | c :: rest =>
    if c = '\n' then [] :: lines rest
    else
      match lines rest with
      | [] => [[c]]
      | first :: others => (c :: first) :: others

/-- The text of a number, padded on the left to a width. -/
def rightAligned (width : Nat) (text : List Char) : List Char :=
  List.replicate (width - text.length) ' ' ++ text

/-- The caret line under the columns from `first` up to `last`, if it is needed. An empty range gets a
caret only where `required` says so. -/
def caretLine (margin first last : Nat) (required : Bool) : List (List Char) :=
  if first < last then
    [List.replicate (margin + first) ' ' ++ List.replicate (last - first) '^']
  else if required then [List.replicate (margin + first) ' ' ++ ['^']]
  else []

/-- The rows that show line `number` of an excerpt from `first` to `last`. -/
def excerptRows (width : Nat) (first last : Position) (text : List Char) (number : Nat) :
    List (List Char) :=
  let left := if number = first.line then first.column else 0
  let right := if number = last.line then last.column else text.length
  (rightAligned width (Decimal.digits (number + 1)) ++ " | ".toList ++ text)
    :: caretLine (width + 3) left right (number = first.line)

/-- The rows of the excerpt for a span. -/
def excerptLines (source : String) (span : Span) : List (List Char) :=
  let first := Position.resolve source span.start
  let last := Position.resolve source (max span.start span.stop)
  let width := (Decimal.digits (last.line + 1)).length
  let touched := ((lines source.toList).drop first.line).take (last.line - first.line + 1)
  (touched.zipIdx first.line).flatMap fun (text, number) =>
    excerptRows width first last text number

def excerpt (source : String) (span : Span) : String :=
  "\n".intercalate ((excerptLines source span).map String.ofList)

end Source

end Primer
