import Primer.Session.FileFault
import Primer.Text.Blank
import Primer.Text.Utf8

/-!
# Programs and input on one stream

A stream carries a program, a line that ends it, and then the input of that program. Reading the
program takes exactly its lines and the line that ends it off the stream.
-/

namespace Primer

namespace Stream

/-- The line that ends a program. -/
def endOfCode : String :=
  "__LAUREL_END_OF_CODE__"

/-- The next line with its line feed, and the bytes after it. -/
def cutLine : List UInt8 → List UInt8 × List UInt8
  | [] => ([], [])
  | byte :: rest =>
    if byte = 10 then ([byte], rest)
    else
      let (line, after) := cutLine rest
      (byte :: line, after)

/-- A line behind which nothing more of a program is read. -/
def endsProgram (line : List UInt8) : Bool :=
  match Text.decode line with
  | .ok text => Text.dropLineEnd text = endOfCode
  | .error _ => true

/-- Reads lines onto the text read before, up to the line that ends a program. A budget of as many
lines as there are bytes is enough. A line that is no text is an error, and is off the stream. -/
def readLines : Nat → String → List UInt8 → Except FileFault String × List UInt8
  | 0, read, bytes => (.ok read, bytes)
  | _, read, [] => (.ok read, [])
  | budget + 1, read, bytes =>
    let (line, after) := cutLine bytes
    match Text.decode line with
    | .error _ => (.error .invalidData, after)
    | .ok text =>
      if Text.dropLineEnd text = endOfCode then (.ok read, after)
      else readLines budget (read ++ text) after

/-- The next program on a stream, and what is left of the stream. -/
def readProgram (bytes : List UInt8) : Except FileFault String × List UInt8 :=
  readLines bytes.length "" bytes

/-- Why a line that is no text cannot be read. -/
def noText : String :=
  "stream did not contain valid UTF-8"

/-- A line without its end. -/
def inputLine (line : List UInt8) : Except String String :=
  match Text.decode line with
  | .ok text => .ok (Text.dropLineEnd text)
  | .error _ => .error noText

/-- The lines of a stream. -/
def inputLinesWithin : Nat → List UInt8 → List (Except String String)
  | 0, _ => []
  | _, [] => []
  | budget + 1, bytes =>
    let (line, after) := cutLine bytes
    inputLine line :: inputLinesWithin budget after

def inputLines (bytes : List UInt8) : List (Except String String) :=
  inputLinesWithin bytes.length bytes

end Stream

end Primer
