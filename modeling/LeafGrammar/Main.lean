import LeafGrammar.CommandLine.Report

/-!
# The command line program

Reads the environment, the arguments and the text, and prints the report.
-/

namespace LeafGrammar.CommandLine

/-- More moves than a run that ends can need in a lifetime. -/
def plenty : Nat := 1000000000000000

/-- All bytes that are left on a stream, after those in `acc`. -/
partial def readAllBytes (stream : IO.FS.Stream) (acc : ByteArray) : IO ByteArray := do
  let chunk ← stream.read 65536
  if chunk.isEmpty then return acc else readAllBytes stream (acc ++ chunk)

/-- The variables of the environment that are settings. -/
def environment : IO (List Variable) := do
  let names := [Settings.levelVariable, Settings.traceVariable]
  let mut found := []
  for name in names ++ names.map Text.upper do
    if let some value ← IO.getEnv name then
      found := found ++ [(name, value)]
  return found

/-- The text of the settings file, empty if there is none. -/
def settingsFile : IO String := do
  try IO.FS.readFile ".env" catch _ => return ""

/-- Why a file could not be opened. -/
def fileFault : IO.Error → FileFault
  | .inappropriateType none _ _ => .directory
  | .inappropriateType (some _) _ _ => .noDirectory
  | _ => .missing

/-- Read the text that a job needs. -/
def readSource : Source → IO (Except Fault (List Char))
  | .text s => return .ok s.toList
  | .stdin => do
    let bytes ← readAllBytes (← IO.getStdin) .empty
    return decodeInput bytes.toList
  | .file path => do
    let path := normalPath path
    try
      let bytes ← IO.FS.readBinFile path
      return decodeInput bytes.toList
    catch e => return .error (.file (fileFault e) path)

/-- Print a report and give the exit code. -/
def printReport (r : Report) : IO UInt32 := do
  IO.print r.stdout
  IO.eprint r.stderr
  match r.ending with
  | .exit code => return code.toUInt32
  | .escaped f =>
    IO.eprintln (f.kindName ++ ": " ++ f.message)
    return 1
  | .outOfFuel =>
    IO.eprintln "out of fuel"
    return 1

end LeafGrammar.CommandLine

open LeafGrammar LeafGrammar.CommandLine in
/-- The program. -/
def main (args : List String) : IO UInt32 := do
  match Settings.read (← environment) (← settingsFile) with
  | .error f => printReport (.escape f)
  | .ok settings =>
    match start Pattern.read settings args with
    | .finished report => printReport report
    | .job j => printReport (j.finish plenty (← readSource j.source))
