import FlagScript.Command.Run

/-!
# The program

Collects what a command can read, carries it out, and shows what it leaves.
-/

namespace FlagScript.Program

/-- The variable that names the flag file of commands that name none. -/
def flagFileVariable : String := "TUNASCRIPT_FLAGS"

/-- How the program is used. -/
def usage : String :=
  "usage: eval|expand FILE [--flags FILE] [--set NAME=VALUE] [--dump-flags]\n" ++
  "       check FILE [--template] [--tree]\n" ++
  "       translate FILE\n"

/-- Opening a path through a file fails with the path, reading a directory without it. -/
def readFailure : IO.Error → Command.ReadFailure
  | .noFileOrDirectory _ _ _ => .missing
  | .inappropriateType (some _) _ _ => .notDirectory
  | .inappropriateType none _ _ => .isDirectory
  | .permissionDenied _ _ _ => .other "Permission denied (os error 13)"
  | e => .other (toString e)

/-- What stands in a file, or why it cannot be read. -/
def readFile (path : String) : IO (Except Command.ReadFailure ByteArray) := do
  try return .ok (← IO.FS.readBinFile path)
  catch e => return .error (readFailure e)

/-- Carries out a command, and answers the code to exit with. -/
def run (command : Command) : IO UInt32 := do
  let flagFile ← IO.getEnv flagFileVariable
  let contents ← (command.files flagFile).mapM fun path => return (path, ← readFile path)
  let input ←
    if command.source = Command.inputName then (← IO.getStdin).readBinToEnd else pure .empty
  let file (path : String) : Except Command.ReadFailure ByteArray :=
    (contents.lookup path).getD (.error .missing)
  let answer := command.run { input, file, flagFile }
  (← IO.getStdout).putStr answer.output
  (← IO.getStderr).putStr answer.complaint
  return answer.code

end FlagScript.Program

def main (args : List String) : IO UInt32 := do
  match FlagScript.Command.ofArgs? args with
  | some command => FlagScript.Program.run command
  | none =>
    (← IO.getStderr).putStr FlagScript.Program.usage
    return 2
