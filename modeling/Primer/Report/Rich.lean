import Primer.Report.Diagnostic
import Primer.Report.Ink
import Primer.Text.Blank
import Primer.Text.Columns

/-!
# Rich reports

A report that draws the source around a diagnostic, with its span marked in the margin or underlined.
Every drawn line starts with a gutter as wide as the largest line number. A span within one line is
underlined with carets; a span over several lines is bracketed in the margin, from a corner at its
start to a corner at its end, and the middle of a long one is left out.
-/

namespace Primer

namespace Rich

/-- The distance of tab stops. -/
def tabStop : Nat :=
  4

/-- How many of the lines after the first are drawn. -/
def linesAfterFirst : Nat :=
  3

/-- How many of the lines before the last are drawn. -/
def linesBeforeLast : Nat :=
  1

/-- A character of a drawn line with its byte offset in the line and the columns it takes. -/
structure Cell where
  char : Char
  offset : Nat
  width : Nat

/-- The cells of a line. A tab reaches to the next tab stop. -/
def cells (offset column : Nat) : List Char → List Cell
  | [] => []
  | c :: rest =>
    let width := if c = '\t' then tabStop - column % tabStop else Text.columns c
    ⟨c, offset, width⟩ :: cells (offset + c.utf8Size) (column + width) rest

/-- The end of a cell in bytes. -/
def Cell.stop (cell : Cell) : Nat :=
  cell.offset + cell.char.utf8Size

/-- A line of the source as it is drawn. -/
def drawnText (line : List Char) : List Char :=
  Text.dropEndWhile (fun c => c == '\n' || c == '\r' || c == '\x00') line

def lineCells (line : List Char) : List Cell :=
  cells 0 0 (drawnText line)

/-- What is written for a cell: itself, or the blanks of a tab. -/
def Cell.written (cell : Cell) : String :=
  if cell.char = '\t' then String.ofList (List.replicate cell.width ' ')
  else String.singleton cell.char

/-- Cells with those that satisfy `marked` in red, and some text for each. -/
def markedRuns (marked : Cell → Bool) (written : Cell → String) : Bool → List Cell → List Stroke
  | inRed, [] => if inRed then [.rinse] else []
  | inRed, cell :: rest =>
    let now := marked cell
    let change :=
      if now && !inRed then [Stroke.dip .red]
      else if !now && inRed then [Stroke.rinse]
      else []
    change ++ .text (written cell) :: markedRuns marked written now rest

/-- A place in the source: the number of its line and the offset in that line, both from zero. -/
structure Mark where
  line : Nat
  column : Nat
  offset : Nat
  deriving DecidableEq, Repr

/-- The mark of a resolved position, in the source before it. -/
def mark (source : String) (offset : Nat) : Mark :=
  let position := Position.resolve source offset
  let lineStart :=
    (Source.lines source.toList).take position.line |>.foldl
      (fun total line => total + (String.ofList line).utf8ByteSize + 1) 0
  ⟨position.line, position.column, position.offset - lineStart⟩

/-- The gutter of a line without a number. -/
def gutter (width : Nat) : Stroke :=
  .text (String.ofList (List.replicate (width + 1) ' '))

/-- The gutter with a line number, which counts from one. -/
def numbered (width line : Nat) : List Stroke :=
  Stroke.painted .blue
      (String.ofList (Source.rightAligned width (Decimal.digits (line + 1)))) ++ [.text " "]

def border : List Stroke :=
  Stroke.painted .blue "│"

/-- What stands in the margin between border and source. -/
inductive Margin where
  | absent
  | blank
  | opening
  | inside
  | closing
  deriving DecidableEq, Repr

def Margin.strokes : Margin → List Stroke
  | .absent => []
  | .blank => [.text "  "]
  | .opening => .text " " :: Stroke.painted .red "╭"
  | .inside => .text " " :: Stroke.painted .red "│"
  | .closing => .text " " :: Stroke.painted .red "╰"

/-- A line without source. -/
def emptyLine (width : Nat) (margin : Margin) : List Stroke :=
  gutter width :: border ++ margin.strokes ++ [.text "\n"]

/-- A line of the source, the marked part of it in red. -/
def sourceLine (width line : Nat) (margin : Margin) (marked : Cell → Bool) (text : List Char) :
    List Stroke :=
  numbered width line ++ border ++ margin.strokes ++ [.text " "]
    ++ markedRuns marked Cell.written false (lineCells text) ++ [.text "\n"]

/-- A message behind a blank, if there is one. -/
def trailing (message : String) : List Stroke :=
  if message.isEmpty then [] else .text " " :: Stroke.painted .red message

/-- Carets under the cells from `first` up to `last`, and blanks before them. The column behind the
text counts as a cell, so that a caret can stand there. -/
def caretLine (width first last : Nat) (message : String) (text : List Char) : List Stroke :=
  let drawn := lineCells text
  let stop := match drawn.getLast? with | some cell => cell.stop | none => 0
  let marked (cell : Cell) : Bool := max first cell.offset < min last cell.stop
  let written (cell : Cell) : String :=
    if marked cell then String.ofList (List.replicate cell.width '^')
    else if cell.offset < last then String.ofList (List.replicate cell.width ' ')
    else ""
  gutter width :: border ++ [.text " "]
    ++ markedRuns marked written false (drawn ++ [⟨'\x00', stop, 1⟩])
    ++ trailing message ++ [.text "\n"]

/-- A line from the margin to a caret: dashes over the cells that start before `stop`. -/
def dashLine (width stop : Nat) (margin : Margin) (message : String) (text : List Char) :
    List Stroke :=
  let before := (lineCells text).takeWhile fun cell => cell.offset < stop
  let dashes := before.foldl (fun total cell => total + cell.width) 0
  gutter width :: border ++ margin.strokes
    ++ Stroke.painted .red
      (String.ofList (List.replicate dashes '─') ++ "^"
        ++ if message.isEmpty then "" else " " ++ message)
    ++ [.text "\n"]

/-- Whether the text before an offset of a line is white space only. -/
def startsInMargin (offset : Nat) (text : List Char) : Bool :=
  let blank := (drawnText text).takeWhile Text.isBlank
  offset ≤ (String.ofList blank).utf8ByteSize

/-- One line of a span over several lines, with the corner line below it. -/
def bracketedLine (width : Nat) (first last : Mark) (message : String) (line : Nat)
    (text : List Char) : List Stroke :=
  if line = first.line then
    let marked (cell : Cell) : Bool := first.offset ≤ cell.offset
    if startsInMargin first.offset text then sourceLine width line .opening marked text
    else
      sourceLine width line .blank marked text
        ++ dashLine width (first.offset + 1) .opening "" text
  else if line = last.line then
    sourceLine width line .inside (fun cell => cell.stop ≤ last.offset) text
      ++ dashLine width last.offset .closing message text
  else sourceLine width line .inside (fun _ => true) text

/-- Whether a line of a span over several lines is drawn in its own right. -/
def isDrawn (first last : Mark) (line : Nat) : Bool :=
  line - first.line ≤ linesAfterFirst || last.line - line ≤ linesBeforeLast

/-- The lines of a span over several lines. A single hidden line is drawn all the same; in place of
more of them there is one line with a broken border. -/
def bracketedLines (width : Nat) (first last : Mark) (message : String) :
    List (List Char × Nat) → List Stroke
  | [] => []
  | (text, line) :: rest =>
    let others := bracketedLines width first last message rest
    if isDrawn first last line
        || (isDrawn first last (line - 1) && isDrawn first last (line + 1)) then
      bracketedLine width first last message line text ++ others
    else if isDrawn first last (line - 1) then
      gutter width :: Stroke.painted .blue "·"
        ++ (if line - 1 = first.line then Margin.blank else Margin.inside).strokes
        ++ .text "\n" :: others
    else others

/-- The lines of a text; a line feed ends its line, and so does a carriage return before it. -/
def noteLines (text : String) : List String :=
  let all := Source.lines text.toList
  let ended := all.dropLast.map fun line =>
    match line.getLast? with
    | some '\r' => line.dropLast
    | _ => line
  let last := all.getLast?.getD []
  (ended ++ if last.isEmpty then [] else [last]).map String.ofList

/-- A note: its first line behind a bullet, the others below it. -/
def note (width : Nat) (text : String) : List Stroke :=
  match noteLines text with
  | [] => []
  | first :: others =>
    gutter width :: Stroke.painted .blue "=" ++ [.text (" " ++ first ++ "\n")]
      ++ others.flatMap fun line => [gutter width, .text ("  " ++ line ++ "\n")]

/-- What a report notes below the source: the calls under way, and the hint. -/
def notes (diagnostic : Diagnostic) : List String :=
  let trace :=
    if diagnostic.trace.isEmpty then []
    else
      ["execution trace:\n" ++ "\n".intercalate
        (diagnostic.trace.map fun entry => "  line " ++ toString entry.line ++ ", in " ++ entry.name)]
  let hint :=
    match diagnostic.hint with
    | some hint => ["hint: " ++ hint]
    | none => []
  trace ++ hint

/-- A report without source. -/
def titleOnly (diagnostic : Diagnostic) : List Stroke :=
  [.dip .boldRed, .text "error", .dip .bold, .text (": " ++ diagnostic.title ++ "\n"), .rinse,
   .text (diagnostic.text ++ "\n")]

/-- A report with the source around its location. -/
def located (diagnostic : Diagnostic) (location : Location) : List Stroke :=
  let source := location.source
  let first := mark source location.span.start
  let last := mark source (max location.span.start location.span.stop)
  let message := location.label.getD diagnostic.text
  let width := (Decimal.digits (last.line + 1)).length
  let touched :=
    (((Source.lines source.toList).drop first.line).take (last.line - first.line + 1)).zipIdx
      first.line
  let several := first.line != last.line
  let outer : Margin := if several then .blank else .absent
  let drawn :=
    if several then bracketedLines width first last message touched
    else
      let stop := max last.offset (first.offset + 1)
      touched.flatMap fun (text, line) =>
        sourceLine width line .absent
            (fun cell => max first.offset cell.offset < min stop cell.stop) text
          ++ caretLine width first.offset stop message text
  let notes := notes diagnostic
  [.dip .boldBrightRed, .text "error", .dip .bold,
    .text (": " ++ diagnostic.title ++ ": " ++ diagnostic.text), .rinse, .text "\n"]
    ++ gutter width :: Stroke.painted .blue "┌─"
    ++ [.text (" " ++ location.path ++ ":" ++ toString (first.line + 1) ++ ":"
      ++ toString (first.column + 1) ++ "\n")]
    ++ emptyLine width outer ++ drawn
    ++ (if notes.isEmpty then [] else emptyLine width outer) ++ notes.flatMap (note width)
    ++ [.text "\n"]

end Rich

/-- The rich form of a diagnostic. -/
def Diagnostic.rich (diagnostic : Diagnostic) : List Stroke :=
  match diagnostic.location with
  | some location => Rich.located diagnostic location
  | none => Rich.titleOnly diagnostic

end Primer
