import Primer.Program.Grammar
import Primer.Session.Failure
import Primer.Text.Utf8

/-!
# Source files

A folder is what a session can see of the file system. A path is followed component by component, as
the system would, and must name a file; a source file must also be named like one.
-/

namespace Primer

/-- What a path can name. -/
inductive Entry where
  | file (bytes : List UInt8)
  | folder

/-- Files and folders by the components of their paths. -/
structure Folder where
  entries : List (List String × Entry)

namespace Path

/-- The pieces of a path between its slashes. -/
def pieces (path : String) : List String :=
  path.splitOn "/"

/-- The pieces that lead somewhere. -/
def components (path : String) : List String :=
  (pieces path).filter fun piece => piece != "" && piece != "."

/-- The last component, if it is a name. -/
def fileName? (path : String) : Option String :=
  match (components path).getLast? with
  | some name => if name = ".." then none else some name
  | none => none

/-- What follows the last point of a file name, unless that point is its first character. -/
def extension? (path : String) : Option String :=
  match fileName? path with
  | none => none
  | some name =>
    let reversed := name.toList.reverse
    let after := reversed.takeWhile (· != '.')
    match reversed.dropWhile (· != '.') with
    | _ :: before => if before.isEmpty then none else some (String.ofList after.reverse)
    | [] => none

end Path

namespace Folder

def empty : Folder :=
  ⟨[]⟩

def add (folder : Folder) (path : String) (entry : Entry) : Folder :=
  ⟨folder.entries ++ [(Path.components path, entry)]⟩

/-- The entry at a place. Where other entries lie inside a place, it is a folder. -/
def at? (folder : Folder) (place : List String) : Option Entry :=
  match folder.entries.lookup place with
  | some entry => some entry
  | none =>
    if place.isEmpty || folder.entries.any (fun (inside, _) => place.isPrefixOf inside) then
      some .folder
    else none

/-- Follows pieces of a path from a place. Nothing outside the folder can be seen. -/
def follow (folder : Folder) (place : List String) : List String → Except FileFault Entry
  | [] =>
    match folder.at? place with
    | some entry => .ok entry
    | none => .error .notFound
  | piece :: rest =>
    match folder.at? place with
    | none => .error .notFound
    | some (.file _) => .error .notADirectory
    | some .folder =>
      if piece = "" || piece = "." then folder.follow place rest
      else if piece = ".." then
        if place.isEmpty then .error .notFound else folder.follow place.dropLast rest
      else folder.follow (place ++ [piece]) rest

/-- The bytes of the file that a path names. -/
def bytes (folder : Folder) (path : String) : Except FileFault (List UInt8) :=
  if path.toList.contains '\x00' then .error .invalidInput
  else if path.isEmpty || path.toList.head? == some '/' then .error .notFound
  else
    match folder.follow [] (Path.pieces path) with
    | .ok (.file bytes) => .ok bytes
    | .ok .folder => .error .isADirectory
    | .error fault => .error fault

end Folder

/-- The extension of source files. -/
def sourceExtension : String :=
  "lrl"

def Text.DecodeFault.toFileFault : Text.DecodeFault → FileFault
  | .malformed => .invalidData
  | .truncated => .unexpectedEnd

/-- The text of a source file, given what reading its path gives. The name is looked at first. -/
def sourceText (path : String) (read : Except FileFault (List UInt8)) : Except Failure String :=
  if Path.extension? path = some sourceExtension then
    match read with
    | .error fault => .error (.file fault)
    | .ok bytes =>
      match Text.decode bytes with
      | .ok text => .ok text
      | .error fault => .error (.file fault.toFileFault)
  else .error (.extension path)

/-- The text of a source file. -/
def readSource (folder : Folder) (path : String) : Except Failure String :=
  sourceText path (folder.bytes path)

/-- The tokens of a source. -/
def lexSource (path source : String) : Except Failure (List Lexeme) :=
  match lex source with
  | .ok lexemes => .ok lexemes
  | .error error => .error (.parse path source ⟨.lexical error, error.span⟩)

/-- The program of a source. -/
def parseSource (path source : String) : Except Failure Block :=
  match parse source with
  | .ok program => .ok program
  | .error error => .error (.parse path source error)

end Primer
