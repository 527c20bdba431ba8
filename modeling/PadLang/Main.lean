/-
This file is the executable: the command, run in the real world.
-/

import PadLang.Command.Basic

namespace PadLang

namespace Command

/-- Whether a number of the system is a given one. It comes with either sign. -/
def isCode (code expected : UInt32) : Bool :=
  code = expected ∨ code = 0 - expected

/-- The obstacle behind a failed operation. -/
def Obstacle.ofError : IO.Error → Obstacle
  | .noFileOrDirectory _ _ _ => .notFound
  | .inappropriateType file code details =>
    if isCode code 20 then .notADirectory
    else if isCode code 21 then .isADirectory
    else .other (toString (IO.Error.inappropriateType file code details))
  | .invalidArgument file code details =>
    if isCode code 36 then .nameTooLong
    else .other (toString (IO.Error.invalidArgument file code details))
  | error => .other (toString error)

/-- Runs an operation and catches what keeps it from succeeding. -/
def attempt {α : Type} (action : IO α) : IO (Except Obstacle α) := do
  match ← action.toBaseIO with
  | .ok value => return .ok value
  | .error error => return .error (.ofError error)

/-- Reads a stream to its end. -/
partial def drain (stream : IO.FS.Stream) (content : ByteArray) : IO ByteArray := do
  let chunk ← stream.read 65536
  if chunk.isEmpty then return content
  drain stream (content ++ chunk)

/-- The operations of the command on standard streams and real files. -/
def terminal : Host IO where
  input := attempt do return (← drain (← IO.getStdin) .empty).toList
  read path := attempt do return (← IO.FS.readBinFile path).toList
  write path text := attempt (IO.FS.writeFile path text)
  print text := IO.print text
  report text := IO.eprint text

end Command

end PadLang

/-- Runs the command with the arguments of the process. -/
def main (arguments : List String) : IO UInt32 :=
  PadLang.Command.run PadLang.Command.terminal arguments
