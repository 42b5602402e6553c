import Primer.Text.Ranges

/-!
# White space around a line

Input lines are read after the white space at both ends is taken off. White space is the Unicode
property, which leaves out the zero-width space and the byte order mark.
-/

namespace Primer.Text

def blankRanges : Ranges :=
  [(0x9, 0xD), (0x20, 0x20), (0x85, 0x85), (0xA0, 0xA0), (0x1680, 0x1680), (0x2000, 0x200A),
   (0x2028, 0x2029), (0x202F, 0x202F), (0x205F, 0x205F), (0x3000, 0x3000)]

def isBlank (c : Char) : Bool :=
  blankRanges.holds c.toNat

/-- The text without the elements satisfying `p` at its end. -/
def dropEndWhile (p : Char → Bool) (text : List Char) : List Char :=
  (text.reverse.dropWhile p).reverse

/-- The text without the white space at either end. -/
def trim (text : String) : String :=
  String.ofList (dropEndWhile isBlank (text.toList.dropWhile isBlank))

/-- The text without the carriage returns and line feeds at its end. -/
def dropLineEnd (text : String) : String :=
  String.ofList (dropEndWhile (fun c => c == '\r' || c == '\n') text.toList)

end Primer.Text
