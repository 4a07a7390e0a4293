import Dataflow.CommandLine.Answer

/-!
# The program

The command line on the real system.
-/

namespace Dataflow.CommandLine

/-- The text of some bytes. -/
def textOfBytes (bytes : ByteArray) : Except ReadError String :=
  (String.fromUTF8? bytes).elim (.error .notText) .ok

/-- The refusal with a number, which some operations give below zero. -/
def refusal (code : UInt32) (details : String) : ReadError :=
  .refusal (if code < 0x80000000 then code.toNat else (0 - code).toNat) details

/-- Why the system does not give the content of a file. -/
def readErrorOf : IO.Error → ReadError
  | .noFileOrDirectory .. => .notFound
  | .inappropriateType _ code details => refusal code details
  | .permissionDenied _ code details => refusal code details
  | .invalidArgument _ code details => refusal code details
  | .resourceExhausted _ code details => refusal code details
  | .otherError code details => refusal code details
  | error => refusal 0 error.toString

/-- What is left of a stream. -/
partial def readRest (stream : IO.FS.Stream) (read : ByteArray) : IO ByteArray := do
  let more ← stream.read 65536
  if more.isEmpty then return read else readRest stream (read ++ more)

/-- The real system. -/
def system : Host IO where
  workingDirectory := return (← IO.currentDir).toString
  isDirectory path := do ((← IO.currentDir) / path).isDir
  hasPath path := do ((← IO.currentDir) / path).pathExists
  readFile path := do
    match ← (IO.FS.readBinFile path).toBaseIO with
    | .ok bytes => return textOfBytes bytes
    | .error error => return .error (readErrorOf error)
  readInput := return textOfBytes (← readRest (← IO.getStdin) .empty)

end Dataflow.CommandLine

/-- Run a command line, print its output and end with its status. -/
def main (arguments : List String) : IO UInt32 := do
  let outcome ← Dataflow.CommandLine.run Dataflow.CommandLine.system arguments
  IO.print outcome.output
  return outcome.code.toUInt32
