import ApiManual.Run

/-! # The command line program -/

namespace ApiManual.Program

/-- The bytes of a file, if there is one that can be read. -/
def readBytes? (path : String) : IO (Option ByteArray) := do
  try
    return some (← IO.FS.readBinFile path)
  catch _ =>
    return none

/-- The text of a file, if there is one that can be read. What is in it must be
text. -/
def readText? (path : String) : IO (Option String) := do
  match ← readBytes? path with
  | none => return none
  | some bytes =>
      match String.fromUTF8? bytes with
      | some text => return some text
      | none => throw (IO.userError (Failure.unreadable path).message)

/-- Writes a text to a path and makes the directories that are missing. -/
def writeText (path text : String) : IO Unit := do
  let directory := DocumentPath.directory path
  if directory ≠ "" then
    IO.FS.createDirAll directory
  IO.FS.writeFile path text

def fail (failure : Failure) : IO UInt32 := do
  IO.eprintln failure.message
  return 1

/-- Writes all texts of a plan, then prints what it prints. -/
def carryOut (quiet : Bool) (plan : Plan) : IO UInt32 := do
  unless quiet do
    for warning in plan.warnings do
      IO.eprintln warning.text
  for (path, text) in plan.writes do
    try
      writeText path text
    catch _ =>
      return ← fail (.unwritable path)
  IO.print plan.printed
  return 0

def runRequest (request : Request) : IO UInt32 := do
  let configuration ← readText? request.configurationPath
  let metadata ← readText? request.metadata
  match request.plan configuration metadata with
  | .ok plan => carryOut request.quiet plan
  | .error failure => fail failure

end ApiManual.Program

def main (words : List String) : IO UInt32 := do
  match ApiManual.Command.ofWords? words with
  | none =>
      IO.eprint ApiManual.CommandLine.helpText
      return 2
  | some .help =>
      IO.print ApiManual.CommandLine.helpText
      return 0
  | some .version =>
      IO.print ApiManual.CommandLine.versionText
      return 0
  | some (.generate request) => ApiManual.Program.runRequest request
