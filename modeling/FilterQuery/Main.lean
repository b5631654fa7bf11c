import FilterQuery.CommandLine

/-!
# The program

Runs the command that its arguments ask for.  Records come from standard input
unless they are given as an argument.
-/

namespace FilterQuery

/-- All lines of a stream. -/
partial def readLines (stream : IO.FS.Stream) (read : String) : IO String := do
  let line ← stream.getLine
  if line.isEmpty then return read
  readLines stream (read ++ line)

/-- The command with its records, if it waits for them and they are not typed by
hand. -/
def supplied (command : Command) : IO Command := do
  let stdin ← IO.getStdin
  if command.wantsInput && !(← stdin.isTty) then
    return command.withInput (← readLines stdin "")
  return command

/-- Prints the answer to a command, or a complaint with an exit code of one. -/
def execute (arguments : List String) : IO UInt32 := do
  match Command.ofArguments arguments with
  | .error complaint =>
    IO.eprintln complaint
    return 2
  | .ok command =>
    match (← supplied command).run with
    | .ok answer =>
      IO.print answer
      return 0
    | .error complaint =>
      IO.eprintln complaint
      return 1

end FilterQuery

def main (arguments : List String) : IO UInt32 :=
  FilterQuery.execute arguments
