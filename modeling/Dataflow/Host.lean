/-!
# The host of a command

What a command asks of the system it runs on. The operations run in a monad, so that a command is
the same function on a real system and on a file tree in memory.
-/

namespace Dataflow

/-- Why a text cannot be read. -/
inductive ReadError where
  /-- There is no such file. -/
  | notFound
  /-- The system refuses, for a reason that it gives a number. -/
  | refused (reason : String) (code : Nat)
  /-- The bytes are no text. -/
  | notText
  deriving DecidableEq, Repr

namespace ReadError

/-- The reasons of some refusals, by their numbers. -/
def reasons : List (Nat × String) :=
  [(13, "Permission denied"), (20, "Not a directory"), (21, "Is a directory"),
    (36, "File name too long"), (40, "Too many levels of symbolic links")]

/-- The refusal of a number. A reason that is not listed is taken as it is told. -/
def refusal (code : Nat) (told : String) : ReadError :=
  .refused ((reasons.lookup code).getD told) code

/-- The refusal to look below a file. -/
def notDirectory : ReadError :=
  refusal 20 "Not a directory"

/-- The refusal to read a directory. -/
def isDirectory : ReadError :=
  refusal 21 "Is a directory"

/-- The refusal of a name that is too long. -/
def nameTooLong : ReadError :=
  refusal 36 "File name too long"

/-- The text of an error. -/
def message : ReadError → String
  | notFound => "No such file or directory (os error 2)"
  | refused reason code => reason ++ " (os error " ++ toString code ++ ")"
  | notText => "stream did not contain valid UTF-8"

end ReadError

/-- The system that a command runs on. -/
structure Host (m : Type → Type) where
  /-- The path of the directory that relative paths start from. -/
  workingDirectory : m String
  /-- A path leads to a directory. -/
  isDirectory : String → m Bool
  /-- A path leads somewhere. -/
  hasPath : String → m Bool
  /-- The text of a file. -/
  readFile : String → m (Except ReadError String)
  /-- The text of the standard input that was not read yet. -/
  readInput : m (Except ReadError String)

end Dataflow
