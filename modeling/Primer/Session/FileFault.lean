/-!
# Files that cannot be read

The ways in which the system refuses to hand over the bytes of a file or a stream.
-/

namespace Primer

inductive FileFault where
  | notFound | permissionDenied | alreadyExists | brokenPipe | invalidInput | invalidData
  | timedOut | writeZero | interrupted | unexpectedEnd | isADirectory | notADirectory | other
  deriving DecidableEq, Repr

namespace FileFault

def all : List FileFault :=
  [notFound, permissionDenied, alreadyExists, brokenPipe, invalidInput, invalidData, timedOut,
   writeZero, interrupted, unexpectedEnd, isADirectory, notADirectory, other]

def message : FileFault → String
  | notFound => "entity not found"
  | permissionDenied => "permission denied"
  | alreadyExists => "entity already exists"
  | brokenPipe => "broken pipe"
  | invalidInput => "invalid input parameter"
  | invalidData => "invalid data"
  | timedOut => "timed out"
  | writeZero => "write zero"
  | interrupted => "operation interrupted"
  | unexpectedEnd => "unexpected end of file"
  | isADirectory => "is a directory"
  | notADirectory => "not a directory"
  | other => "other error"

end FileFault

end Primer
