import Primer.Text.Extending
import Primer.Text.Unprintable

/-!
# Quoted text

The spelling of a text or a character between quotes, as a reader can type it back: the quote and the
backslash are escaped, the usual controls have short escapes, and every other character that would
not show, or would join the one before it, is spelled by its code point.
-/

namespace Primer.Text

/-- The escape of a character by its code point in hexadecimal. -/
def codeEscape (c : Char) : List Char :=
  ['\\', 'u', '\x7b'] ++ Nat.toDigits 16 c.toNat ++ ['\x7d']

/-- The spelling of `c` between two `mark`s. Only the surrounding mark is escaped, not other quotes. -/
def spell (mark c : Char) : List Char :=
  if c = '\x00' then ['\\', '0']
  else if c = '\t' then ['\\', 't']
  else if c = '\r' then ['\\', 'r']
  else if c = '\n' then ['\\', 'n']
  else if c = mark || c = '\\' then ['\\', c]
  else if isExtending c || isUnprintable c then codeEscape c
  else [c]

/-- A text between double quotes. -/
def quote (text : String) : String :=
  String.ofList ('"' :: (text.toList.flatMap (spell '"') ++ ['"']))

/-- A character between single quotes. -/
def quoteChar (c : Char) : String :=
  String.ofList ('\'' :: (spell '\'' c ++ ['\'']))

end Primer.Text
