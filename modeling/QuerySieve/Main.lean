import QuerySieve.CommandLine.Program
import Std.Time.DateTime.Timestamp

/-!
# The command line program

Reads the arguments, the policy file and the environment, and prints what `CommandLine.respond`
answers.
-/

namespace QuerySieve.CommandLine

/-- The text of a file, if it can be read. -/
def readTextFile (path : String) : IO (Option String) := do
  try return some (← IO.FS.readFile path) catch _ => return none

/-- Write records to the error output. -/
def writeRecords (records : List LogRecord) : IO Unit := do
  for r in records do
    let now ← Std.Time.Timestamp.now
    IO.eprintln (r.line now.toMillisecondsSinceUnixEpoch.toInt.toNat)

/-- Print an answer and give its exit code. -/
def finish (answer : Response) : IO UInt32 := do
  match answer with
  | .printed text records =>
    writeRecords records
    IO.println text
  | .failed e records =>
    writeRecords records
    IO.eprintln ("Error: " ++ e.message)
  | .refused f =>
    IO.eprintln ("error: " ++ f.message)
  return UInt32.ofNat answer.exitCode

end QuerySieve.CommandLine

open QuerySieve in
/-- Run the program. -/
def main (arguments : List String) : IO UInt32 := do
  let path := match CommandLine.Options.read arguments with
    | .ok o => o.config
    | .error _ => none
  let text ← match path with
    | some p => CommandLine.readTextFile p
    | none => pure none
  let settings ← Limits.variableNames.mapM fun name => do return (name, ← IO.getEnv name)
  CommandLine.finish (CommandLine.respond arguments (fun _ => text)
    (fun name => (settings.lookup name).join))
