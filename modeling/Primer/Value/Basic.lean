import Primer.Program.Printer

/-!
# Values

Numbers, texts, lists and functions. Truth values and null are numbers. A function carries the scope
it was created in, by its index among all scopes.
-/

namespace Primer

/-- The index of a scope among all scopes ever made. -/
abbrev ScopeId := Nat

/-- What a request for input asks for. -/
inductive InputKind where
  | int | float | string
  deriving DecidableEq, Repr

/-- The functions that programs find in the global scope. -/
inductive Native where
  | say
  | ask (kind : InputKind)
  deriving DecidableEq, Repr

/-- A function of the program with the scope it was created in. -/
structure Function where
  name : Option String
  params : List String
  body : Body
  closure : ScopeId

inductive Value where
  | number (value : Number)
  | string (value : String)
  | list (elements : List Value)
  | function (value : Function)
  | native (value : Native)

instance : Inhabited Value := ⟨.number default⟩

namespace Native

def all : List Native :=
  [.say, .ask .int, .ask .float, .ask .string]

def name : Native → String
  | .say => "say"
  | .ask .int => "get_int"
  | .ask .float => "get_float"
  | .ask .string => "get_string"

/-- The number of arguments, if it is fixed. -/
def arity? : Native → Option Nat
  | .say => none
  | .ask _ => some 1

end Native

namespace Function

def shownName (function : Function) : String :=
  function.name.getD "<anonymous>"

/-- The value of the body is the value of a call. Otherwise a call yields what it returns, or null. -/
def autoReturn (function : Function) : Bool :=
  !function.body.isBlock

/-- A function without its body and scope, on one line. -/
def describe (function : Function) : String :=
  "Function \x7b name: " ++ Text.quote function.shownName ++ ", params: ["
    ++ ", ".intercalate (function.params.map Text.quote) ++ "], auto_return: "
    ++ (if function.autoReturn then "true" else "false") ++ " \x7d"

end Function

namespace Value

def ofBool (b : Bool) : Value :=
  .number (.ofBool b)

def null : Value :=
  .number (.int 0)

def isTrue : Value → Bool
  | .number value => !value.isZero
  | .string value => !value.isEmpty
  | .list _ => true
  | .function _ => false
  | .native _ => false

mutual

/-- A value as programs print it. -/
def text : Value → String
  | .number value => value.text
  | .string value => value
  | .list elements => joinedTexts elements
  | .function value => "<function " ++ value.shownName ++ ">"
  | .native value => "<built-in function " ++ value.name ++ ">"

def joinedTexts : List Value → String
  | [] => ""
  | [value] => value.text
  | value :: next :: rest => value.text ++ ", " ++ joinedTexts (next :: rest)

end

mutual

/-- A value with quotes around texts and brackets around lists. -/
def quoted : Value → String
  | .string value => "\"" ++ value ++ "\""
  | .list elements => "[" ++ joinedQuoted elements ++ "]"
  | .number value => value.text
  | .function value => "<function " ++ value.shownName ++ ">"
  | .native value => "<built-in function " ++ value.name ++ ">"

def joinedQuoted : List Value → String
  | [] => ""
  | [value] => value.quoted
  | value :: next :: rest => value.quoted ++ ", " ++ joinedQuoted (next :: rest)

end

mutual

/-- Whether two values built apart from each other are the same. Every evaluation of a function
expression makes a function of its own, so no two functions built apart are. -/
def same : Value → Value → Bool
  | .number a, .number b => a.same b
  | .string a, .string b => a == b
  | .list as, .list bs => sameAll as bs
  | .native a, .native b => a = b
  | _, _ => false

def sameAll : List Value → List Value → Bool
  | [], [] => true
  | a :: as, b :: bs => a.same b && sameAll as bs
  | _, _ => false

end

end Value

end Primer
