import Primer.Program.Node
import Primer.Program.ParseError
import Primer.Token.Precedence

/-!
# Parsing tokens one by one

A parser consumes a list of tokens. Its state is kept when it fails, so that it points at the token
that could not be accepted. Reading past the last token yields the end of input for ever, and a parser
never moves past an end of input.
-/

namespace Primer

/-- The tokens still to be parsed. -/
abbrev Tokens := List Lexeme

namespace Tokens

def current : Tokens → Token
  | [] => .endOfInput
  | lexeme :: _ => lexeme.token

/-- The token after the current one. -/
def peek : Tokens → Token
  | _ :: lexeme :: _ => lexeme.token
  | _ => .endOfInput

def span : Tokens → Span
  | [] => ⟨0, 0⟩
  | lexeme :: _ => lexeme.span

/-- The tokens behind the current one, or the same tokens at the end of input. -/
def step : Tokens → Tokens
  | [] => []
  | lexeme :: rest => if lexeme.token = .endOfInput then lexeme :: rest else rest

def skipNewlines : Tokens → Tokens
  | [] => []
  | lexeme :: rest => if lexeme.token = .newline then skipNewlines rest else lexeme :: rest

/-- A block body starts here, not a body on the same line. -/
def atBlockStart (tokens : Tokens) : Bool :=
  match tokens.current with
  | .newline | .endOfInput => true
  | _ => false

/-- The error for a current token in place of which something else was expected. -/
def unexpected (tokens : Tokens) (expected : List String) : ParseError :=
  ⟨.unexpected tokens.current expected, tokens.span⟩

end Tokens

abbrev Parser := EStateM ParseError Tokens

namespace Parser

def current : Parser Token := do
  return (← get).current

def peek : Parser Token := do
  return (← get).peek

def span : Parser Span := do
  return (← get).span

def atBlockStart : Parser Bool := do
  return (← get).atBlockStart

def step : Parser Unit :=
  modify Tokens.step

def skipNewlines : Parser Unit :=
  modify Tokens.skipNewlines

/-- The current token, which is passed unless it is an end of input. There is none behind the last. -/
def next : Parser (Option Lexeme) := do
  let tokens ← get
  set tokens.step
  return tokens.head?

def unexpected {α : Type} (expected : List String) : Parser α := do
  throw ((← get).unexpected expected)

/-- Passes the given token. -/
def expect (token : Token) : Parser Span := do
  let tokens ← get
  if tokens.current.agrees token then
    set tokens.step
    return tokens.span
  else throw (tokens.unexpected ["`" ++ token.literal ++ "`"])

/-- Passes the given token, in place of which something of the given kinds is expected. -/
def demand (token : Token) (expected : List String) : Parser Unit := do
  if (← current) = token then step else unexpected expected

/-- Passes the given token if it is there. -/
def skip (token : Token) : Parser Unit := do
  if (← current) = token then step

/-- Passes an identifier. -/
def ident : Parser Ident := do
  let tokens ← get
  match tokens.current with
  | .ident name =>
    set tokens.step
    return ⟨name, tokens.span⟩
  | _ => throw ⟨.expectedIdent, tokens.span⟩

end Parser

end Primer
