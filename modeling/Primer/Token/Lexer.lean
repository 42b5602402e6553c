import Primer.Decimal.Reading
import Primer.Text.Utf8
import Primer.Token.Basic
import Primer.Token.LexicalError

/-!
# Reading tokens

A cursor is a place in a source: what is left to read and the byte offset of its start. `scan` skips
blanks and a comment and reads one token or one error, and it always leaves a cursor from which
reading can go on. `lex` reads a whole source and stops at the first error.

Each kind of token is a maximal run of characters, taken off the front of the text with `takeWhile`
and `dropWhile`, so the text of a token and the text after it always make up the text before it.
-/

namespace Primer

/-- A place in a source: its byte offset and the text from there on. -/
structure Cursor where
  offset : Nat
  rest : List Char
  deriving DecidableEq, Repr

/-- What one attempt to read a token gives. -/
abbrev Scanned := Except LexicalError Lexeme

namespace Cursor

def start (source : String) : Cursor :=
  ⟨0, source.toList⟩

/-- The cursor behind the next character. -/
def advance (cursor : Cursor) : Cursor :=
  match cursor.rest with
  | [] => cursor
  | c :: rest => ⟨cursor.offset + c.utf8Size, rest⟩

/-- The cursor behind the longest run of characters that satisfy `p`. -/
def dropWhile (p : Char → Bool) (cursor : Cursor) : Cursor :=
  ⟨cursor.offset + Text.byteLength (cursor.rest.takeWhile p), cursor.rest.dropWhile p⟩

/-- A token read between two cursors. -/
def accept (first last : Cursor) (token : Token) : Scanned × Cursor :=
  (.ok ⟨token, ⟨first.offset, last.offset⟩⟩, last)

/-- An error read between two cursors. -/
def reject (first last : Cursor) (fault : LexicalFault) : Scanned × Cursor :=
  (.error ⟨fault, ⟨first.offset, last.offset⟩⟩, last)

end Cursor

namespace Lexer

/-- The characters that separate tokens and nothing else. -/
def isBlank (c : Char) : Bool :=
  c == ' ' || c == '\t' || c == '\x0c' || c == '\r'

/-- The characters that separate statements. -/
def isSeparator (c : Char) : Bool :=
  c == '\n' || c == ';'

def isWordStart (c : Char) : Bool :=
  c.isAlpha || c == '_'

def isWordPart (c : Char) : Bool :=
  c.isAlphanum || c == '_'

/-- Skips blanks and then a comment, which ends before the next line feed. -/
def skipLayout (cursor : Cursor) : Cursor :=
  let cursor := cursor.dropWhile isBlank
  match cursor.rest with
  | '#' :: _ => cursor.dropWhile (· != '\n')
  | _ => cursor

/-- Goes over separators, blanks and comments. The first result is the offset behind the last
separator, and the cursor is behind the layout after it. -/
def separatorRun (stop offset : Nat) (commented : Bool) : List Char → Nat × Cursor
  | [] => (stop, ⟨offset, []⟩)
  | c :: rest =>
    let next := offset + c.utf8Size
    if c == '\n' || (c == ';' && !commented) then separatorRun next next false rest
    else if commented || c == '#' then separatorRun stop next true rest
    else if isBlank c then separatorRun stop next false rest
    else (stop, ⟨offset, c :: rest⟩)

/-- One `newline` for a whole run of separators. -/
def separators (here : Cursor) : Scanned × Cursor :=
  let (stop, after) := separatorRun here.offset here.offset false here.rest
  (.ok ⟨.newline, ⟨here.offset, stop⟩⟩, after)

/-- A keyword or an identifier. -/
def word (here : Cursor) : Scanned × Cursor :=
  let name := String.ofList (here.rest.takeWhile isWordPart)
  let token :=
    match Keyword.ofText? name with
    | some keyword => .keyword keyword
    | none => .ident name
  here.accept (here.dropWhile isWordPart) token

/-- A number: an integer, or with one point among or around its digits a binary64. -/
def number (here : Cursor) : Scanned × Cursor :=
  let whole := here.rest.takeWhile Decimal.isDigit
  let afterWhole := here.dropWhile Decimal.isDigit
  match afterWhole.rest with
  | '.' :: _ =>
    let point := afterWhole.advance
    let fraction := point.rest.takeWhile Decimal.isDigit
    let after := point.dropWhile Decimal.isDigit
    match after.rest with
    | '.' :: _ => here.reject after.advance .secondPoint
    | _ =>
      if whole.isEmpty && fraction.isEmpty then here.reject after (.unrecognized '.')
      else here.accept after (.float (Decimal.nearest (whole ++ fraction) (-fraction.length)))
  | _ =>
    match Decimal.int64? (Decimal.natural whole) with
    | some value => here.accept afterWhole (.int value)
    | none => here.reject afterWhole .tooLarge

/-- The character an escape stands for. -/
def unescape (c : Char) : Char :=
  if c = 'n' then '\n' else if c = 't' then '\t' else c

/-- The text of a string up to its closing quote, and the cursor behind that. -/
def stringBody (offset : Nat) : List Char → Option (List Char) × Cursor
  | [] => (none, ⟨offset, []⟩)
  | '"' :: rest => (some [], ⟨offset + 1, rest⟩)
  | ['\\'] => (none, ⟨offset + 1, []⟩)
  | '\\' :: c :: rest =>
    let (value, after) := stringBody (offset + 1 + c.utf8Size) rest
    (value.map (unescape c :: ·), after)
  | c :: rest =>
    let (value, after) := stringBody (offset + c.utf8Size) rest
    (value.map (c :: ·), after)

def string (here : Cursor) : Scanned × Cursor :=
  let quote := here.advance
  match stringBody quote.offset quote.rest with
  | (some value, after) => here.accept after (.string (String.ofList value))
  | (none, after) => here.reject after .unterminated

/-- A token of one character. -/
def single (here : Cursor) (token : Token) : Scanned × Cursor :=
  here.accept here.advance token

/-- A token of two characters if the second one follows, and of one otherwise. -/
def pair (here : Cursor) (second : Char) (double alone : Token) : Scanned × Cursor :=
  let after := here.advance
  match after.rest with
  | c :: _ => if c = second then here.accept after.advance double else here.accept after alone
  | [] => here.accept after alone

/-- The token `!=`, of which no part is a token. -/
def inequality (here : Cursor) : Scanned × Cursor :=
  let after := here.advance
  match after.rest with
  | '=' :: _ => here.accept after.advance .notEqual
  | _ => here.reject after (.missing '=' '!')

/-- Reads the token that starts at a cursor where no layout is left. -/
def token (here : Cursor) : Scanned × Cursor :=
  match here.rest with
  | [] => here.accept here .endOfInput
  | c :: _ =>
    match c with
    | '+' => single here .plus
    | '*' => single here .times
    | '/' => single here .divide
    | '^' => single here .power
    | '(' => single here .leftParen
    | ')' => single here .rightParen
    | '[' => single here .leftBracket
    | ']' => single here .rightBracket
    | ',' => single here .comma
    | '-' => pair here '>' .arrow .minus
    | '=' => pair here '=' .equal .assign
    | '<' => pair here '=' .lessEqual .less
    | '>' => pair here '=' .greaterEqual .greater
    | '!' => inequality here
    | '"' => string here
    | c =>
      if isSeparator c then separators here
      else if isWordStart c then word here
      else if Decimal.isDigit c || c == '.' then number here
      else here.reject here.advance (.unrecognized c)

/-- Reads one token, with the layout before it. -/
def scan (cursor : Cursor) : Scanned × Cursor :=
  token (skipLayout cursor)

/-- Reads tokens up to the end of input or the first error. A budget as long as the text is enough,
because every token but the last takes a character; when it is spent the text is too. -/
def lexFrom : Nat → Cursor → Except LexicalError (List Lexeme)
  | 0, cursor => .ok [⟨.endOfInput, .emptyAt cursor.offset⟩]
  | budget + 1, cursor =>
    match scan cursor with
    | (.error error, _) => .error error
    | (.ok lexeme, after) =>
      if lexeme.token = .endOfInput then .ok [lexeme]
      else (lexFrom budget after).map (lexeme :: ·)

end Lexer

/-- The tokens of a source, the last of which is the end of input. -/
def lex (source : String) : Except LexicalError (List Lexeme) :=
  Lexer.lexFrom source.length (.start source)

/-- Tokens read on demand. The stream ends behind the end of input and behind the first error. -/
structure TokenStream where
  cursor : Cursor
  finished : Bool

namespace TokenStream

def start (source : String) : TokenStream :=
  ⟨.start source, false⟩

def next (stream : TokenStream) : Option Scanned × TokenStream :=
  if stream.finished then (none, stream)
  else
    let (scanned, cursor) := Lexer.scan stream.cursor
    let finished :=
      match scanned with
      | .ok lexeme => lexeme.token = .endOfInput
      | .error _ => true
    (some scanned, ⟨cursor, finished⟩)

end TokenStream

/-- The next two characters of a source, each with its offset. -/
structure Window where
  position : Nat
  nextPosition : Nat
  current : Option Char
  next : Option Char

/-- An optional character as the description of a window shows it. -/
def Window.describeChar : Option Char → String
  | none => "None"
  | some c => "Some(" ++ Text.quoteChar c ++ ")"

def Window.describe (window : Window) : String :=
  "Lexer \x7b\n\tposition: " ++ toString window.position ++ ",\n\tnext_position: "
    ++ toString window.nextPosition ++ ",\n\tch: " ++ describeChar window.current ++ ", next_ch: "
    ++ describeChar window.next ++ "\n\x7d"

namespace Cursor

/-- The next two characters at a cursor. At the end of input both places are the same. -/
def window (cursor : Cursor) : Window :=
  let next := cursor.advance
  ⟨cursor.offset, next.offset, cursor.rest.head?, next.rest.head?⟩

def describe (cursor : Cursor) : String :=
  cursor.window.describe

end Cursor

end Primer
