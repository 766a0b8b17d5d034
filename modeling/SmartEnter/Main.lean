/-
# The program

Looks up the paths that a command line names, lets the run decide (`CommandLine.run`), and carries
out what it reports.

The run itself is a function: it gets the words of the command line, one variable of the
environment, and a file system that answers for the paths it may ask about, and it returns
everything that is to be written.  So this module is the only one that does anything, and it decides
nothing.  It reads before the run and writes after it, in the order in which the run lists its
effects.

The machine is asked about four paths at most: the input, the style file that belongs to it, the
output and the directory that the output is to be written into (`pathsOf`).  For a run that names
other ones there is no file.
-/
import SmartEnter.CommandLine.Run

namespace SmartEnter.CommandLine

def levelVariable : String := "ENTERINDENT_LOG_LEVEL"

/-- The paths that a run may look at.  The directory of the output is one of them, because a new
file can be written only where its directory is. -/
def pathsOf (a : Arguments) : List Path :=
  let input := Path.ofString a.input
  let output := (given a.output).map Path.ofString
  [input, stylePath a.config input] ++ output.toList ++ output.toList.map Path.parent

/-- The failure that an error of the machine stands for; those that have no name here keep their
number. -/
def failureOf : IO.Error → AccessFailure
  | .noFileOrDirectory .. => .missing
  | .inappropriateType .. => .notDirectory
  | .invalidArgument .. => .nameTooLong
  | .permissionDenied .. => .permissionDenied
  | .otherError number words => .other number.toNat words
  | e => .other 5 (toString e)

/-- What stands at a path of the machine.  A file that is there and cannot be read is told from one
that is not there by asking whether anything is there at all. -/
def lookUp (p : Path) : IO (Except AccessFailure Entry) := do
  if let some f := p.fault? then return .error f
  let path := (← IO.currentDir) / p.text
  if ← path.isDir then return .ok .directory
  try
    return .ok (.file (← IO.FS.readBinFile path).toList)
  catch e =>
    let f := failureOf e
    return if ← path.pathExists then .ok (.locked f) else .error f

def machine (words : List String) : IO FileSystem := do
  let paths := match Arguments.ofList words with
    | .ok a => pathsOf a
    | .error _ => []
  let entries ← paths.mapM fun p => do return (p, ← lookUp p)
  return { look := fun p => (entries.lookup p).getD (.error .missing) }

/-- Carries out what a run leaves behind: the file first, then the text, then the lines of the
log. -/
def carry (done : Effects) : IO Unit := do
  if let some (path, bytes) := done.written then
    IO.FS.writeBinFile ((← IO.currentDir) / path.text) bytes.toByteArray
  let stdout ← IO.getStdout
  stdout.write (Text.Utf8.encode done.stdout).toByteArray
  stdout.flush
  for line in done.stderr do
    IO.eprintln line

def Escape.message [Style.Stack] : Escape → String
  | .problem (.integer f) => f.message
  | .problem (.styleEncoding f) => f.message
  | .problem .styleSyntax => Style.fileName ++ " is no valid style file"
  | .problem (.styleAccess f p) => f.message p
  | .problem (.bare flag) => (UsageFailure.expectedOne flag).message
  | .problem .styleDepth => depthMessage
  | .problem (.setting e) =>
    if e.fault.shown?.all Style.Stack.shows then Decimal.unwritableMessage else depthMessage
  | .problem (.argument cause) => cause.message
  | .indent f => f.message
  | .access f p => f.message p
  | .unwritable => Decimal.unwritableMessage

end SmartEnter.CommandLine

open SmartEnter SmartEnter.CommandLine in
/-- Runs the program with the arguments of the command line.  The program holds out for a
thousand nested values, and for an indent of four gibibytes. -/
def main (words : List String) : IO UInt32 := do
  let _ := Style.Stack.ofDepth 1000
  let _ : Text.Memory := ⟨0x100000000, by decide⟩
  match run words (← IO.getEnv levelVariable) (← machine words) with
  | .report r =>
    carry r.toEffects
    return UInt32.ofNat r.exitCode
  | .usage f =>
    IO.eprintln f.line
    return UInt32.ofNat f.exitCode
  | .escape e done =>
    carry done
    IO.eprintln e.message
    return 1
