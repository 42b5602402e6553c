/-!
# Coloured text

A coloured text is a list of strokes: pieces of text, and changes of colour between them. It can be
written with the escape sequences of terminals or without any colour.
-/

namespace Primer

/-- The colours of reports and status lines. -/
inductive Ink where
  | boldRed | boldBrightRed | boldBrightGreen | bold | blue | red
  deriving DecidableEq, Repr

/-- A piece of text, the start of a colour, or the return to none. -/
inductive Stroke where
  | text (piece : String)
  | dip (ink : Ink)
  | rinse
  deriving DecidableEq, Repr

/-- Whether text is written with its colours. -/
inductive Colouring where
  | without | ansi
  deriving DecidableEq, Repr

namespace Ink

/-- The escape sequence of one attribute. -/
def escape (code : String) : String :=
  "\x1b[" ++ code ++ "m"

/-- Every change of colour clears the colour before it. -/
def ansi : Ink → String
  | .boldRed => escape "0" ++ escape "1" ++ escape "31"
  | .boldBrightRed => escape "0" ++ escape "1" ++ escape "38;5;9"
  | .boldBrightGreen => escape "0" ++ escape "1" ++ escape "38;5;10"
  | .bold => escape "0" ++ escape "1"
  | .blue => escape "0" ++ escape "34"
  | .red => escape "0" ++ escape "31"

end Ink

namespace Stroke

def write (colouring : Colouring) : Stroke → String
  | .text piece => piece
  | .dip ink =>
    match colouring with
    | .without => ""
    | .ansi => ink.ansi
  | .rinse =>
    match colouring with
    | .without => ""
    | .ansi => Ink.escape "0"

/-- A text in a colour. -/
def painted (ink : Ink) (text : String) : List Stroke :=
  [.dip ink, .text text, .rinse]

/-- The strokes as one text. -/
def writeAll (colouring : Colouring) (strokes : List Stroke) : String :=
  String.join (strokes.map (write colouring))

end Stroke

end Primer
