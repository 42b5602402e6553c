import Primer.Text.Utf8

/-!
# Lines and columns

A byte offset is resolved to the character boundary at or before it, and to the line and column of
that boundary. The line is searched in a list of the offsets at which lines start, `locate`, and its
column is the number of characters from there to the boundary. `Source.lineStarts` is that list.
-/

namespace Primer

namespace Source

/-- The offsets at which lines start in a text that stands at an offset itself: those behind its line
feeds. -/
def startsFrom (offset : Nat) : List Char → List Nat
  | [] => []
  | c :: rest =>
    if c = '\n' then (offset + c.utf8Size) :: startsFrom (offset + c.utf8Size) rest
    else startsFrom (offset + c.utf8Size) rest

/-- The offsets at which the lines of a source start: zero, and those behind the line feeds. -/
def lineStarts (source : String) : List Nat :=
  0 :: startsFrom 0 source.toList

/-- The characters that start in a range of offsets, of a text that stands at an offset itself. -/
def slice (start stop offset : Nat) : List Char → List Char
  | [] => []
  | c :: rest =>
    let others := slice start stop (offset + c.utf8Size) rest
    if start ≤ offset ∧ offset < stop then c :: others else others

/-- Whether a text can be divided after so many bytes. -/
def isBoundary (offset : Nat) : List Char → Bool
  | [] => offset == 0
  | c :: rest => offset == 0 || c.utf8Size ≤ offset && isBoundary (offset - c.utf8Size) rest

/-- The last boundary of a text at or before an offset. -/
def floorBoundary (text : List Char) : Nat → Nat
  | 0 => 0
  | offset + 1 => if isBoundary (offset + 1) text then offset + 1 else floorBoundary text offset

end Source

/-- A character boundary of a source with its line and column, all counted from zero. -/
structure Position where
  offset : Nat
  line : Nat
  column : Nat
  deriving DecidableEq, Repr

namespace Position

/-- The last boundary of a source at or before `offset`, on the last of the lines with the given starts
that starts no later. -/
def locate (starts : List Nat) (source : String) (offset : Nat) : Position :=
  let boundary := Source.floorBoundary source.toList (min offset source.utf8ByteSize)
  let (start, line) := (starts.takeWhile (· ≤ boundary)).zipIdx.getLast?.getD (0, 0)
  ⟨boundary, line, (Source.slice start boundary 0 source.toList).length⟩

/-- The position of an offset in a source. -/
def resolve (source : String) (offset : Nat) : Position :=
  locate (Source.lineStarts source) source offset

end Position

end Primer
